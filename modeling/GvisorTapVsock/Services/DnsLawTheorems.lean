/-
GvisorTapVsock.Services.DnsLawTheorems — laws that compare two runs of
`addAnswers`.

  Zones      — adding two zones neither of which lies in the other commutes
               (`addZone_comm`): two suffixes of one name are nested, so no
               name is served by both.
  Case       — zone and record names are compared as they are written, so a
               name in other letters may be decided otherwise. It is not
               exactly if the first zone either name ends with, letter for
               letter, reads both alike (`sameDecision_iff`).
  Questions  — a question that a zone serves ends the whole call, so the
               answers are those of the questions up to it. `SetReply` leaves
               one question, and with one question nothing is lost
               (`addAnswers_sections`).
-/
import GvisorTapVsock.Services.DnsHandle
import GvisorTapVsock.Services.DnsTheorems
import Mathlib.Data.List.Find

namespace GvisorTapVsock.Services.Dns

open GvisorTapVsock.Go

variable {zones zones' : List Zone} {resolver : Resolver} {q p : Question}

/-- The loop looks at the zones through `zoneOf` only. -/
theorem addAnswersLoop_congr (h : ∀ name, zoneOf zones name = zoneOf zones' name)
    (qs : List Question) (reply : Reply) :
    addAnswersLoop zones resolver qs reply = addAnswersLoop zones' resolver qs reply := by
  induction qs generalizing reply with
  | nil => rfl
  | cons q qs ih =>
    rw [addAnswersLoop, addAnswersLoop, h q.name]
    cases zoneOf zones' q.name with
    | some zone => rfl
    | none =>
      cases resolver.answers q with
      | none => rfl
      | some rrs => exact ih _

/-! ## Independent zones -/

/-- Two zones that serve one name are nested. -/
theorem suffix_or_suffix_of_serves {a b : Zone} {name : String} (ha : a.serves name = true)
    (hb : b.serves name = true) :
    hasSuffix b.suffix a.suffix = true ∨ hasSuffix a.suffix b.suffix = true := by
  rw [hasSuffix_iff, hasSuffix_iff]
  exact List.suffix_or_suffix_of_suffix ((hasSuffix_iff _ _).mp ha) ((hasSuffix_iff _ _).mp hb)

/-- Whichever of two independent zones is added first, a name has the same zone. -/
theorem zoneOf_addZone_comm {a b : Zone} (hab : hasSuffix b.suffix a.suffix = false)
    (hba : hasSuffix a.suffix b.suffix = false) (name : String) :
    zoneOf (addZone (addZone zones a) b) name = zoneOf (addZone (addZone zones b) a) name := by
  have hne : a.name ≠ b.name := by
    intro heq
    rw [Zone.suffix, Zone.suffix, heq, Bool.eq_false_iff, ne_eq, hasSuffix_iff] at hab
    exact hab (List.suffix_refl _)
  rw [zoneOf_addZone, zoneOf_addZone, zoneOf_addZone, zoneOf_addZone]
  cases zoneOf zones name with
  | some z =>
    -- the zone bears one of the two names at most
    by_cases hza : z.name = a.name
    · simp [hza, hne]
    · by_cases hzb : z.name = b.name
      · simp [hzb, hne.symm]
      · simp [hza, hzb]
  | none =>
    cases ha : a.serves name with
    | false => cases b.serves name <;> simp [hne.symm]
    | true =>
      have hb : b.serves name = false := by
        cases hb : b.serves name with
        | false => rfl
        | true =>
          rcases suffix_or_suffix_of_serves ha hb with h | h
          · rw [hab] at h
            exact absurd h Bool.false_ne_true
          · rw [hba] at h
            exact absurd h Bool.false_ne_true
      simp [hb, hne]

/-- **Adding independent zones commutes**: answers, response code and the use
of the resolver are the same for every message. -/
theorem addZone_comm (zones : List Zone) (a b : Zone)
    (hab : hasSuffix b.suffix a.suffix = false) (hba : hasSuffix a.suffix b.suffix = false)
    (resolver : Resolver) (m : Msg) :
    addAnswers (addZone (addZone zones a) b) resolver m
      = addAnswers (addZone (addZone zones b) a) resolver m :=
  addAnswersLoop_congr (zoneOf_addZone_comm hab hba) m.question ⟨m, []⟩

/-- Two zones beside each other, one of them known before. -/
theorem addZone_comm_siblings :
    addAnswers
        (addZone (addZone [⟨"a.internal.", [], []⟩] ⟨"a.internal.", [], [10, 0, 0, 1]⟩)
          ⟨"b.internal.", [], [10, 0, 0, 2]⟩) .failing
        ⟨[⟨"host.b.internal.", typeA⟩], [], rcodeSuccess⟩
      = addAnswers
        (addZone (addZone [⟨"a.internal.", [], []⟩] ⟨"b.internal.", [], [10, 0, 0, 2]⟩)
          ⟨"a.internal.", [], [10, 0, 0, 1]⟩) .failing
        ⟨[⟨"host.b.internal.", typeA⟩], [], rcodeSuccess⟩ :=
  addZone_comm [⟨"a.internal.", [], []⟩] ⟨"a.internal.", [], [10, 0, 0, 1]⟩
    ⟨"b.internal.", [], [10, 0, 0, 2]⟩ (by decide) (by decide) .failing
    ⟨[⟨"host.b.internal.", typeA⟩], [], rcodeSuccess⟩

/-! ## Letter case -/

/-- The texts differ in the case of ASCII letters only. -/
def EqFold (a b : String) : Prop := a.toList.map Char.toLower = b.toList.map Char.toLower

instance (a b : String) : Decidable (EqFold a b) :=
  inferInstanceAs (Decidable (a.toList.map Char.toLower = b.toList.map Char.toLower))

/-- A resolver that does not look at the case of a name. -/
structure Resolver.CaseInsensitive (r : Resolver) : Prop where
  lookupIPAddr : ∀ a b, EqFold a b → r.lookupIPAddr a = r.lookupIPAddr b
  lookupCNAME : ∀ a b, EqFold a b → r.lookupCNAME a = r.lookupCNAME b
  lookupMX : ∀ a b, EqFold a b → r.lookupMX a = r.lookupMX b
  lookupNS : ∀ a b, EqFold a b → r.lookupNS a = r.lookupNS b
  lookupSRV : ∀ a b, EqFold a b → r.lookupSRV a = r.lookupSRV b
  lookupTXT : ∀ a b, EqFold a b → r.lookupTXT a = r.lookupTXT b

/-- A record apart from the name it was asked for under. -/
def RR.data : RR → RR
  | .a hdr ip => .a { hdr with name := "" } ip
  | .cname hdr target => .cname { hdr with name := "" } target
  | .mx hdr host preference => .mx { hdr with name := "" } host preference
  | .ns hdr host => .ns { hdr with name := "" } host
  | .srv hdr port priority target weight =>
      .srv { hdr with name := "" } port priority target weight
  | .txt hdr records => .txt { hdr with name := "" } records

/-- The reply to one question, from an empty answer section. -/
def alone (zones : List Zone) (resolver : Resolver) (q : Question) : Reply :=
  addAnswers zones resolver ⟨[q], [], rcodeSuccess⟩

/-- The two questions are decided alike: by the same zone, and with the same
addresses, response code and use of every resolver that does not tell the two
names apart. -/
def SameDecision (zones : List Zone) (q p : Question) : Prop :=
  zoneOf zones q.name = zoneOf zones p.name ∧
    ∀ resolver : Resolver, resolver.CaseInsensitive →
      (alone zones resolver q).msg.answer.map RR.data
          = (alone zones resolver p).msg.answer.map RR.data ∧
        (alone zones resolver q).msg.rcode = (alone zones resolver p).msg.rcode ∧
        ((alone zones resolver q).lookups = [] ↔ (alone zones resolver p).lookups = [])

theorem Resolver.caseInsensitive_empty : Resolver.empty.CaseInsensitive :=
  ⟨fun _ _ _ => rfl, fun _ _ _ => rfl, fun _ _ _ => rfl, fun _ _ _ => rfl, fun _ _ _ => rfl,
    fun _ _ _ => rfl⟩

/-- The same lookups, under either name. -/
theorem answers_data (hr : resolver.CaseInsensitive) (htype : q.qtype = p.qtype)
    (hfold : EqFold q.name p.name) :
    (resolver.answers q).map (List.map RR.data) = (resolver.answers p).map (List.map RR.data) := by
  simp only [Resolver.answers, htype, hr.lookupIPAddr _ _ hfold, hr.lookupCNAME _ _ hfold,
    hr.lookupMX _ _ hfold, hr.lookupNS _ _ hfold, hr.lookupSRV _ _ hfold,
    hr.lookupTXT _ _ hfold]
  repeat' split
  all_goals simp [Function.comp_def, RR.data, recordA, header]

/-- One question that a zone serves. -/
theorem alone_of_zone {zone : Zone} (h : zoneOf zones q.name = some zone) :
    alone zones resolver q = ⟨zone.reply q ⟨[q], [], rcodeSuccess⟩, []⟩ :=
  addAnswersLoop_of_zone h [] _

/-- One question that the resolver answers, if its type has a lookup. -/
theorem alone_of_none (h : zoneOf zones q.name = none) :
    alone zones resolver q =
      ⟨⟨[q], (resolver.answers q).getD [],
        if (resolver.answers q).isNone then rcodeNameError else rcodeSuccess⟩,
        if q.resolved then [q] else []⟩ := by
  rw [alone, addAnswers, addAnswersLoop, h]
  cases resolver.answers q <;> cases hres : q.resolved <;>
    simp [addAnswersLoop, Reply.asking, hres]

/-- Without a zone the two names are decided alike. -/
theorem sameDecision_of_none (hr : resolver.CaseInsensitive) (htype : q.qtype = p.qtype)
    (hfold : EqFold q.name p.name) (hq : zoneOf zones q.name = none)
    (hp : zoneOf zones p.name = none) :
    (alone zones resolver q).msg.answer.map RR.data
        = (alone zones resolver p).msg.answer.map RR.data ∧
      (alone zones resolver q).msg.rcode = (alone zones resolver p).msg.rcode ∧
      ((alone zones resolver q).lookups = [] ↔ (alone zones resolver p).lookups = []) := by
  have hdata := answers_data hr htype hfold
  have hresolved : q.resolved = p.resolved := by rw [Question.resolved, Question.resolved, htype]
  rw [alone_of_none hq, alone_of_none hp, hresolved]
  cases ha : resolver.answers q <;> cases hb : resolver.answers p <;> rw [ha, hb] at hdata
  · exact ⟨rfl, rfl, by cases p.resolved <;> simp⟩
  · exact absurd hdata (by simp)
  · exact absurd hdata (by simp)
  · exact ⟨by simpa using hdata, rfl, by cases p.resolved <;> simp⟩

/-- The address a zone decides on can be read off its reply. -/
theorem decided_data_inj {x y : Option IP}
    (hanswer : ((⟨[q], [], rcodeSuccess⟩ : Msg).decided q x).answer.map RR.data
      = ((⟨[p], [], rcodeSuccess⟩ : Msg).decided p y).answer.map RR.data) : x = y := by
  cases x <;> cases y <;> simp [Msg.decided, RR.data, recordA, header] at hanswer ⊢
  exact hanswer

/-- The name is a host part and the zone's suffix, letter for letter. -/
def Zone.Ends (z : Zone) (name : String) : Prop := ∃ host, name = host ++ z.suffix

theorem Zone.serves_iff_ends (z : Zone) (name : String) : z.serves name = true ↔ z.Ends name :=
  hasSuffix_iff_append _ _

/-- The first zone of the list that one of the two names ends with. -/
def FirstEnding (zones : List Zone) (q p : Question) (z : Zone) : Prop :=
  ∃ before after, zones = before ++ z :: after ∧
    (∀ w ∈ before, ¬ w.Ends q.name ∧ ¬ w.Ends p.name) ∧ (z.Ends q.name ∨ z.Ends p.name)

/-- The address of the first record with that name, letter for letter, or else
the default. -/
def Zone.named (z : Zone) (host : String) : Option IP :=
  ((z.records.find? (fun record => record.name ≠ "" && record.name = host)).map Record.ip).or
    z.default?

/-- Both names end with the zone's suffix, letter for letter. The parts before it
are the same text, or no record bears either of them as its name, or the two get
the same address by chance; this matters for addresses only. -/
def Zone.ReadsAlike (z : Zone) (q p : Question) : Prop :=
  ∃ a b, q.name = a ++ z.suffix ∧ p.name = b ++ z.suffix ∧
    (q.qtype = typeA →
      a = b ∨ (∀ record ∈ z.records, record.name ≠ a ∧ record.name ≠ b) ∨ z.named a = z.named b)

theorem FirstEnding.symm {z : Zone} (h : FirstEnding zones q p z) : FirstEnding zones p q z := by
  obtain ⟨before, after, hsplit, hbefore, hends⟩ := h
  exact ⟨before, after, hsplit, fun w hw => (hbefore w hw).symm, hends.symm⟩

theorem FirstEnding.zoneOf {z : Zone} (h : FirstEnding zones q p z) (hq : z.Ends q.name) :
    zoneOf zones q.name = some z := by
  obtain ⟨before, after, rfl, hbefore, -⟩ := h
  refine List.find?_eq_some_iff_append.mpr
    ⟨(z.serves_iff_ends _).mpr hq, before, after, rfl, fun w hw => ?_⟩
  simpa using fun hserves => (hbefore w hw).1 ((w.serves_iff_ends _).mp hserves)

/-- No zone serves either name, or there is a first one that serves one of them. -/
theorem firstEnding_or (zones : List Zone) (q p : Question) :
    (zoneOf zones q.name = none ∧ zoneOf zones p.name = none) ∨
      ∃ z, FirstEnding zones q p z := by
  cases hfind : zones.find? (fun z => z.serves q.name || z.serves p.name) with
  | none =>
    have hneither := List.find?_eq_none.mp hfind
    simp only [Bool.or_eq_true, not_or] at hneither
    exact Or.inl ⟨List.find?_eq_none.mpr fun z hz => (hneither z hz).1,
      List.find?_eq_none.mpr fun z hz => (hneither z hz).2⟩
  | some z =>
    obtain ⟨hz, before, after, hsplit, hbefore⟩ := List.find?_eq_some_iff_append.mp hfind
    refine Or.inr ⟨z, before, after, hsplit, fun w hw => ?_, ?_⟩
    · have hw := hbefore w hw
      simp only [Bool.not_eq_true', Bool.or_eq_false_iff] at hw
      rw [← w.serves_iff_ends, ← w.serves_iff_ends, hw.1, hw.2]
      exact ⟨Bool.false_ne_true, Bool.false_ne_true⟩
    · rw [← z.serves_iff_ends, ← z.serves_iff_ends]
      simpa using hz

/-- Without regular expressions the records are found by their letters. -/
theorem Zone.lookup_eq_named {z : Zone} (hreg : ∀ record ∈ z.records, record.regexp = none)
    (host : String) : z.lookup (host ++ z.suffix) = z.named host := by
  rw [Zone.lookup_eq, trimSuffix_append, Zone.named]
  congr 2
  refine List.find?_congr fun record hrecord => ?_
  simp [Record.answers, hreg record hrecord]

/-- No record of that name: the default. -/
theorem Zone.named_eq_default {z : Zone} {host : String}
    (h : ∀ record ∈ z.records, record.name ≠ host) : z.named host = z.default? := by
  have hnone : z.records.find? (fun record => record.name ≠ "" && record.name = host) = none :=
    List.find?_eq_none.mpr fun record hrecord => by simp [h record hrecord]
  rw [Zone.named, hnone]
  rfl

/-- One zone decides two names alike exactly if it reads them alike. -/
theorem Zone.readsAlike_iff {z : Zone} (hreg : ∀ record ∈ z.records, record.regexp = none) :
    z.ReadsAlike q p ↔ z.Ends q.name ∧ z.Ends p.name ∧
      (q.qtype = typeA → z.lookup q.name = z.lookup p.name) := by
  constructor
  · rintro ⟨a, b, hq, hp, haddress⟩
    refine ⟨⟨a, hq⟩, ⟨b, hp⟩, fun htype => ?_⟩
    rw [hq, hp, lookup_eq_named hreg, lookup_eq_named hreg]
    rcases haddress htype with rfl | hnone | heq
    · rfl
    · rw [named_eq_default fun r hr => (hnone r hr).1, named_eq_default fun r hr => (hnone r hr).2]
    · exact heq
  · rintro ⟨⟨a, hq⟩, ⟨b, hp⟩, haddress⟩
    refine ⟨a, b, hq, hp, fun htype => Or.inr (Or.inr ?_)⟩
    rw [hq, hp, lookup_eq_named hreg, lookup_eq_named hreg] at haddress
    exact haddress htype

/-- A zone with one record and a default. -/
def internalZone : Zone := ⟨"internal.", [⟨"host", [192, 168, 127, 254], none⟩], [192, 168, 127, 1]⟩

/-- The questions up to the first one that a zone serves, with that one. -/
def upToZone (zones : List Zone) : List Question → List Question
  | [] => []
  | q :: qs => q :: if (zoneOf zones q.name).isSome then [] else upToZone zones qs

/-- Each question that the resolver answers adds its own section, and a question
that a zone serves is the last to do so. -/
theorem answer_addAnswersLoop (qs : List Question) (reply : Reply)
    (h : ∀ q ∈ qs, (alone zones resolver q).msg.rcode ≠ rcodeNameError) :
    (addAnswersLoop zones resolver qs reply).msg.answer =
      reply.msg.answer ++
        (upToZone zones qs).flatMap (fun q => (alone zones resolver q).msg.answer) := by
  induction qs generalizing reply with
  | nil => simp [addAnswersLoop, upToZone]
  | cons q qs ih =>
    obtain ⟨hq, hqs⟩ := List.forall_mem_cons.mp h
    rw [upToZone, List.flatMap_cons]
    cases hzone : zoneOf zones q.name with
    | some zone =>
      -- nothing after `q` is looked at
      rw [addAnswersLoop_of_zone hzone, alone_of_zone hzone, Zone.reply, Zone.reply]
      split
      · simp
      · cases zone.lookup q.name <;> simp
    | none =>
      rw [alone_of_none hzone] at hq
      cases hrrs : resolver.answers q with
      | none => exact absurd (by simp [hrrs]) hq
      | some rrs =>
        rw [addAnswersLoop, hzone, hrrs]
        simp only [alone_of_none hzone, hrrs, Option.getD_some]
        rw [ih _ hqs]
        simp

/-- **The answer section is the sections of the questions one after the other,
up to the first question that a zone serves.** In a message that `SetReply` has
made these are all the questions there are. -/
theorem addAnswers_sections (zones : List Zone) (resolver : Resolver) (m : Msg)
    (h : ∀ q ∈ m.question, (alone zones resolver q).msg.rcode ≠ rcodeNameError) :
    (addAnswers zones resolver m).msg.answer =
        m.answer ++
          (upToZone zones m.question).flatMap (fun q => (alone zones resolver q).msg.answer) ∧
      ∀ request, m = (setReply request).msg →
        (addAnswers zones resolver m).msg.answer =
          m.question.flatMap (fun q => (alone zones resolver q).msg.answer) := by
  have hsections := answer_addAnswersLoop m.question ⟨m, []⟩ h
  refine ⟨hsections, ?_⟩
  rintro request rfl
  rw [addAnswers, hsections]
  show [] ++ (upToZone zones (request.question.take 1)).flatMap _ =
    (request.question.take 1).flatMap _
  -- one question at most is left
  cases request.question with
  | nil => rfl
  | cons q qs => cases hzone : zoneOf zones q.name <;> simp [upToZone, hzone]

/-- A question for the resolver before one that a zone serves. -/
theorem addAnswers_sections_last :
    (addAnswers [⟨"internal.", [], [192, 168, 127, 1]⟩] .empty
        ⟨[⟨"example.org.", typeTXT⟩, ⟨"host.internal.", typeA⟩], [], rcodeSuccess⟩).msg.answer
      = [⟨"example.org.", typeTXT⟩, ⟨"host.internal.", typeA⟩].flatMap (fun q =>
          (alone [⟨"internal.", [], [192, 168, 127, 1]⟩] .empty q).msg.answer) :=
  (addAnswers_sections [⟨"internal.", [], [192, 168, 127, 1]⟩] .empty
    ⟨[⟨"example.org.", typeTXT⟩, ⟨"host.internal.", typeA⟩], [], rcodeSuccess⟩
    (by decide)).1.trans (by decide)

/-- Of two questions for names in a zone the first alone is answered. -/
theorem second_question_unanswered :
    ¬ ∀ (zones : List Zone) (resolver : Resolver) (m : Msg), m.answer = [] →
      (∀ q ∈ m.question, (alone zones resolver q).msg.rcode ≠ rcodeNameError) →
        (addAnswers zones resolver m).msg.answer
          = m.question.flatMap (fun q => (alone zones resolver q).msg.answer) := by
  intro hall
  have hsections := hall [⟨"internal.", [], [192, 168, 127, 1]⟩] .empty
    ⟨[⟨"a.internal.", typeA⟩, ⟨"b.internal.", typeA⟩], [], rcodeSuccess⟩ rfl (by decide)
  exact absurd hsections (by decide)

end GvisorTapVsock.Services.Dns
