/-
GvisorTapVsock.Services.DnsTheorems — which zone decides a question, and what
adding a zone changes.

`addAnswersLoop` looks at the zones through `zoneOf` only, so both results
rest on how `zoneOf` behaves:

* `decidedByZone_iff` — a question for a name in or below a zone is decided by
  the zone exactly if the name is not the zone's OWN or its type has no lookup:
  `"." + zone.Name` is no suffix of `zone.Name`, and the question goes on to a
  later zone or to the resolver.
* `addAnswers_addZone` — adding a zone changes the answers of the names its
  own name decides and of no others.
-/
import GvisorTapVsock.Services.Dns

namespace GvisorTapVsock.Services.Dns

open GvisorTapVsock.Go

variable {zones : List Zone} {zone req : Zone} {resolver : Resolver} {q : Question}

/-! ## The loop -/

/-- A zone that serves the name ends the call. -/
theorem addAnswersLoop_of_zone (h : zoneOf zones q.name = some zone) (qs : List Question)
    (reply : Reply) :
    addAnswersLoop zones resolver (q :: qs) reply = ⟨zone.reply q reply.msg, reply.lookups⟩ := by
  rw [addAnswersLoop, h]

/-- Without a zone the zones play no part in the answer to one question. -/
theorem addAnswersLoop_of_none (h : zoneOf zones q.name = none) (reply : Reply) :
    addAnswersLoop zones resolver [q] reply = addAnswersLoop [] resolver [q] reply := by
  rw [addAnswersLoop, h, addAnswersLoop]
  simp only [zoneOf, List.find?_nil]
  cases resolver.answers q <;> rfl

/-! ## Names in and below a zone -/

/-- The name is the zone's own or lies below it. -/
def Zone.owns (zone : Zone) (name : String) : Bool := name = zone.name || zone.serves name

/-- The first zone the name belongs to. -/
def ownerOf (zones : List Zone) (name : String) : Option Zone :=
  zones.find? (fun zone => zone.owns name)

/-- A message with this one question is answered without the resolver, as
`zone` alone would answer it, whatever the resolver. -/
def DecidedByZone (zones : List Zone) (q : Question) (zone : Zone) : Prop :=
  ∀ resolver resolver' m, m.question = [q] →
    (addAnswers zones resolver m).lookups = [] ∧
      addAnswers zones resolver m = addAnswers [zone] resolver' m

/-- No zone serves its own name. -/
theorem serves_own_name (zone : Zone) : zone.serves zone.name = false := by
  apply hasSuffix_eq_false
  simp [Zone.suffix, String.toList_append]

/-- The first zone a name belongs to is the first that serves it, if it does. -/
theorem zoneOf_of_ownerOf {name : String} (howner : ownerOf zones name = some zone)
    (hserves : zone.serves name = true) : zoneOf zones name = some zone := by
  obtain ⟨-, before, after, rfl, hbefore⟩ := List.find?_eq_some_iff_append.mp howner
  refine List.find?_eq_some_iff_append.mpr ⟨hserves, before, after, rfl, fun w hw => ?_⟩
  have hnot := hbefore w hw
  simp only [Zone.owns, Bool.not_or, Bool.and_eq_true] at hnot
  exact hnot.2

/-- A resolver that finds every name and no records. -/
def Resolver.empty : Resolver :=
  ⟨fun _ => some [], fun _ => some "", fun _ => some [], fun _ => some [], fun _ => some [],
    fun _ => some []⟩

theorem failing_answers (h : q.resolved = true) : Resolver.failing.answers q = none := by
  simp only [Question.resolved, List.mem_cons, List.not_mem_nil, or_false,
    decide_eq_true_eq] at h
  unfold Resolver.answers
  rcases h with h | h | h | h | h | h <;> rw [h] <;> rfl

theorem empty_answers (q : Question) : ∃ rrs, Resolver.empty.answers q = some rrs := by
  unfold Resolver.answers
  repeat' split
  all_goals simp [Resolver.empty]

/-- A question without a zone whose type has a lookup: the response code depends
on the resolver. -/
theorem rcode_of_none (hq : zoneOf zones q.name = none) (hresolved : q.resolved = true) {m : Msg}
    (hm : m.question = [q]) :
    (addAnswers zones .failing m).msg.rcode = rcodeNameError ∧
      (addAnswers zones .empty m).msg.rcode = m.rcode := by
  obtain ⟨rrs, hrrs⟩ := empty_answers q
  constructor
  · simp only [addAnswers, hm, addAnswersLoop, hq, failing_answers hresolved]
  · simp only [addAnswers, hm, addAnswersLoop, hq, hrrs]

/-- A question whose type has no lookup leaves the message as it is. -/
theorem addAnswers_of_not_resolved (hresolved : q.resolved = false) {m : Msg}
    (hm : m.question = [q]) : addAnswers zones resolver m = ⟨m, []⟩ := by
  simp only [Question.resolved, List.mem_cons, List.not_mem_nil, or_false,
    decide_eq_false_iff_not, not_or] at hresolved
  obtain ⟨ha, hcname, hmx, hns, hsrv, htxt⟩ := hresolved
  rw [addAnswers, hm, addAnswersLoop]
  cases zoneOf zones q.name with
  | some zone => simp [Zone.reply, ha]
  | none =>
    have hasking : (⟨m, []⟩ : Reply).asking q = ⟨m, []⟩ := by
      simp [Reply.asking, Question.resolved, ha, hcname, hmx, hns, hsrv, htxt]
    simp [Resolver.answers, ha, hcname, hmx, hns, hsrv, htxt, hasking, addAnswersLoop]

/-- **A question for a name that belongs to a zone is decided by the first such
zone alone exactly if the name is not that zone's own, or the type of the
question is none that is looked up.** -/
theorem decidedByZone_iff (zones : List Zone) (q : Question) (zone : Zone)
    (howner : ownerOf zones q.name = some zone) :
    DecidedByZone zones q zone ↔ q.name ≠ zone.name ∨ q.resolved = false := by
  constructor
  · intro hdecided
    by_contra hnot
    rw [not_or, not_not, Bool.not_eq_false] at hnot
    obtain ⟨hown, hresolved⟩ := hnot
    -- the zone does not serve its own name, so the reply depends on the resolver
    have hnone : zoneOf [zone] q.name = none := by
      simp [zoneOf, hown, serves_own_name]
    obtain ⟨hfail, hempty⟩ := rcode_of_none hnone hresolved (m := ⟨[q], [], rcodeSuccess⟩) rfl
    rw [← (hdecided .failing .failing _ rfl).2] at hfail
    rw [← (hdecided .failing .empty _ rfl).2, hfail] at hempty
    exact absurd (show rcodeNameError = rcodeSuccess from hempty) (by decide)
  · rintro (hne | hresolved) resolver resolver' m hm
    · have hserves : zone.serves q.name = true := by
        have howns : zone.owns q.name = true := by simpa using List.find?_some howner
        simpa [Zone.owns, hne] using howns
      have halone : zoneOf [zone] q.name = some zone := by simp [zoneOf, hserves]
      rw [addAnswers, addAnswers, hm, addAnswersLoop_of_zone (zoneOf_of_ownerOf howner hserves),
        addAnswersLoop_of_zone halone]
      exact ⟨rfl, rfl⟩
    · rw [addAnswers_of_not_resolved hresolved hm, addAnswers_of_not_resolved hresolved hm]
      exact ⟨rfl, rfl⟩

/-- A name below the zone `internal.` is decided by it. -/
theorem decidedByZone_below :
    DecidedByZone [⟨"internal.", [], [192, 168, 127, 1]⟩] ⟨"host.internal.", typeA⟩
      ⟨"internal.", [], [192, 168, 127, 1]⟩ :=
  (decidedByZone_iff _ ⟨"host.internal.", typeA⟩ _ rfl).mpr (Or.inl (by decide))

/-- The name `internal.` itself goes to the resolver. -/
theorem zone_own_name_resolved :
    ¬ ∀ (zones : List Zone) (q : Question) (zone : Zone),
      ownerOf zones q.name = some zone → DecidedByZone zones q zone := by
  intro hall
  have hdecided := hall [⟨"internal.", [], [192, 168, 127, 1]⟩] ⟨"internal.", typeA⟩ _ rfl
  exact absurd (hdecided .failing .failing ⟨[⟨"internal.", typeA⟩], [], rcodeSuccess⟩ rfl).1
    (by decide)

/-! ## Adding a zone -/

/-- What `addZone` does: it appends, or replaces the first zone of that name. -/
theorem addZone_eq (zones : List Zone) (req : Zone) :
    (∀ z ∈ zones, z.name ≠ req.name) ∧ addZone zones req = zones ++ [req] ∨
      ∃ before z after, zones = before ++ z :: after ∧ z.name = req.name ∧
        (∀ w ∈ before, w.name ≠ req.name) ∧
        addZone zones req
          = before ++ { req with records := req.records ++ z.records } :: after := by
  induction zones with
  | nil => exact Or.inl ⟨by simp, rfl⟩
  | cons z zones ih =>
    by_cases hname : z.name = req.name
    · exact Or.inr ⟨[], z, zones, rfl, hname, by simp, by rw [addZone, if_pos hname]; rfl⟩
    · rw [addZone, if_neg hname]
      rcases ih with ⟨hnone, heq⟩ | ⟨before, w, after, rfl, hw, hbefore, heq⟩
      · exact Or.inl ⟨List.forall_mem_cons.mpr ⟨hname, hnone⟩, by rw [heq]; rfl⟩
      · exact Or.inr ⟨z :: before, w, after, rfl, hw, List.forall_mem_cons.mpr ⟨hname, hbefore⟩,
          by rw [heq]; rfl⟩

/-- Whether a zone serves a name depends on its own name only. -/
theorem serves_congr {z w : Zone} (h : z.name = w.name) (name : String) :
    z.serves name = w.serves name := by
  rw [Zone.serves, Zone.serves, Zone.suffix, Zone.suffix, h]

theorem zoneOf_cons (z : Zone) (zones : List Zone) (name : String) :
    zoneOf (z :: zones) name = if z.serves name then some z else zoneOf zones name := by
  rw [zoneOf, List.find?_cons]
  cases z.serves name <;> rfl

/-- **The zone of a name after `addZone`.** -/
theorem zoneOf_addZone (zones : List Zone) (req : Zone) (name : String) :
    zoneOf (addZone zones req) name =
      match zoneOf zones name with
      | some z =>
          if z.name = req.name then some { req with records := req.records ++ z.records }
          else some z
      | none => if req.serves name then some req else none := by
  induction zones with
  | nil => rw [addZone, zoneOf_cons]; rfl
  | cons z zones ih =>
    by_cases hname : z.name = req.name
    · -- the merged zone serves what `z` and `req` serve
      have hreq := serves_congr hname name
      have hmerged : ({ req with records := req.records ++ z.records } : Zone).serves name
          = z.serves name := serves_congr hname.symm name
      rw [addZone, if_pos hname, zoneOf_cons, zoneOf_cons, hmerged]
      by_cases hserves : z.serves name = true
      · simp [hserves, hname]
      · -- no zone of that name serves it, so neither side changes
        simp only [hserves, Bool.false_eq_true, if_false]
        cases hzone : zoneOf zones name with
        | none => simp [← hreq, hserves]
        | some w =>
          have hw : w.serves name = true := by simpa using List.find?_some hzone
          have hne : w.name ≠ req.name := by
            intro hwname
            rw [serves_congr (hwname.trans hname.symm) name] at hw
            exact hserves hw
          simp [hne]
    · rw [addZone, if_neg hname, zoneOf_cons, zoneOf_cons, ih]
      by_cases hserves : z.serves name = true
      · simp [hserves, hname]
      · simp [hserves]

theorem equal_nil (ip : IP) : IP.equal ip [] = decide (ip = []) := by
  cases ip <;> simp [IP.equal]

/-- The reply when the address of a name has been decided. -/
def Msg.decided (m : Msg) (q : Question) : Option IP → Msg
  | some ip => { m with answer := m.answer ++ [recordA q ip] }
  | none => { m with rcode := rcodeNameError }

/-- A zone's own reply to a question for an address. -/
theorem Zone.reply_typeA (z : Zone) {q : Question} (hq : q.qtype = typeA) (m : Msg) :
    z.reply q m = m.decided q (z.lookup q.name) := by
  rw [Zone.reply, if_neg (not_not.mpr hq)]
  cases z.lookup q.name <;> rfl

/-- The default of a zone, if it is set. -/
def Zone.default? (z : Zone) : Option IP := if z.defaultIP = [] then none else some z.defaultIP

theorem Zone.lookup_eq (z : Zone) (name : String) :
    z.lookup name =
      ((z.records.find? (fun record => record.answers (trimSuffix name z.suffix))).map
        Record.ip).or z.default? := by
  rw [Zone.lookup, equal_nil, Zone.default?]
  cases z.records.find? (fun record => record.answers (trimSuffix name z.suffix)) <;> simp

/-- The new records come before the old ones. -/
theorem lookup_merged (req z : Zone) (name : String) :
    ({ req with records := req.records ++ z.records } : Zone).lookup name =
      (((req.records.find? (fun record => record.answers (trimSuffix name req.suffix))).map
          Record.ip).or
        ((z.records.find? (fun record => record.answers (trimSuffix name req.suffix))).map
          Record.ip)).or req.default? := by
  rw [Zone.lookup_eq]
  show ((List.find? _ (req.records ++ z.records)).map Record.ip).or req.default? = _
  rw [List.find?_append, Option.map_or]
  rfl

/-- Names stay pairwise distinct. -/
theorem nodup_addZone (zones : List Zone) (req : Zone) (h : (zones.map Zone.name).Nodup) :
    ((addZone zones req).map Zone.name).Nodup := by
  rcases addZone_eq zones req with ⟨hnone, heq⟩ | ⟨before, z, after, rfl, hname, -, heq⟩
  · rw [heq, List.map_append, List.nodup_append]
    refine ⟨h, by simp, ?_⟩
    intro a ha b hb
    obtain ⟨z, hz, rfl⟩ := List.mem_map.mp ha
    rw [List.map_singleton, List.mem_singleton] at hb
    rw [hb]
    exact hnone z hz
  · rw [heq]
    simpa [hname] using h

/-- **Adding a zone.** For a single question for an address: a zone of another
name that decided it still does; a zone of the added name now looks in the new
records, then in the old ones, then at the new default; a name no zone served
is decided by the added zone or left to the resolver. -/
theorem addAnswers_addZone (zs : List Zone) (r : Zone) (resolver : Resolver) (m : Msg)
    (q : Question) (hm : m.question = [q]) (hq : q.qtype = typeA) :
    (∀ z, zoneOf zs q.name = some z → z.name ≠ r.name →
      addAnswers (addZone zs r) resolver m = addAnswers zs resolver m)
    ∧ (∀ z, zoneOf zs q.name = some z → z.name = r.name →
      addAnswers (addZone zs r) resolver m =
        ⟨m.decided q
          ((((r.records.find? (fun record => record.answers (trimSuffix q.name r.suffix))).map
              Record.ip).or
            ((z.records.find? (fun record => record.answers (trimSuffix q.name r.suffix))).map
              Record.ip)).or r.default?), []⟩)
    ∧ (zoneOf zs q.name = none → r.serves q.name = true →
      addAnswers (addZone zs r) resolver m = ⟨m.decided q (r.lookup q.name), []⟩)
    ∧ (zoneOf zs q.name = none → r.serves q.name = false →
      addAnswers (addZone zs r) resolver m = addAnswers [] resolver m
        ∧ (addAnswers (addZone zs r) resolver m).lookups = [q])
    -- the order of the zones, and the zones of other names
    ∧ ((∀ z ∈ zs, z.name ≠ r.name) ∧ addZone zs r = zs ++ [r] ∨
      ∃ before z after, zs = before ++ z :: after ∧ z.name = r.name ∧
        (∀ w ∈ before, w.name ≠ r.name) ∧
        addZone zs r = before ++ { r with records := r.records ++ z.records } :: after)
    ∧ ((zs.map Zone.name).Nodup → ((addZone zs r).map Zone.name).Nodup) := by
  have hzone := zoneOf_addZone zs r q.name
  refine ⟨?_, ?_, ?_, ?_, addZone_eq zs r, nodup_addZone zs r⟩
  · intro z hz hne
    rw [hz] at hzone
    simp only [hne, if_false] at hzone
    rw [addAnswers, addAnswers, hm, addAnswersLoop_of_zone hzone, addAnswersLoop_of_zone hz]
  · intro z hz hname
    rw [hz] at hzone
    simp only [hname, if_true] at hzone
    rw [addAnswers, hm, addAnswersLoop_of_zone hzone, Zone.reply_typeA _ hq, lookup_merged]
  · intro hz hserves
    rw [hz] at hzone
    simp only [hserves, if_true] at hzone
    rw [addAnswers, hm, addAnswersLoop_of_zone hzone, Zone.reply_typeA _ hq]
  · intro hz hserves
    rw [hz] at hzone
    simp only [hserves, Bool.false_eq_true, if_false] at hzone
    have hresolved : q.resolved = true := by simp [Question.resolved, hq]
    refine ⟨?_, ?_⟩
    · rw [addAnswers, addAnswers, hm, addAnswersLoop_of_none hzone]
    · rw [addAnswers, hm, addAnswersLoop, hzone]
      cases resolver.answers q <;> simp [addAnswersLoop, Reply.asking, hresolved]

/-- `host` is added to the zone of `gateway`, and both are found. -/
theorem addZone_gateway_and_host :
    addAnswers
        (addZone [⟨"internal.", [⟨"gateway", [192, 168, 127, 1], none⟩], []⟩]
          ⟨"internal.", [⟨"host", [192, 168, 127, 254], none⟩], []⟩)
        .failing ⟨[⟨"gateway.internal.", typeA⟩], [], rcodeSuccess⟩
      = ⟨⟨[⟨"gateway.internal.", typeA⟩],
          [recordA ⟨"gateway.internal.", typeA⟩ [192, 168, 127, 1]], rcodeSuccess⟩, []⟩ :=
  ((addAnswers_addZone [⟨"internal.", [⟨"gateway", [192, 168, 127, 1], none⟩], []⟩]
    ⟨"internal.", [⟨"host", [192, 168, 127, 254], none⟩], []⟩ .failing
    ⟨[⟨"gateway.internal.", typeA⟩], [], rcodeSuccess⟩ ⟨"gateway.internal.", typeA⟩ rfl rfl).2.1
    _ rfl rfl).trans (by decide)

end GvisorTapVsock.Services.Dns
