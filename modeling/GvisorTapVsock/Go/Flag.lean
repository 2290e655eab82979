/-
GvisorTapVsock.Go.Flag — command lines, as Go's `flag` package reads them.

A flag set gives each name the variable it sets. The variables are indexed by
`ι`, each with its own type `β i`, so that a value of the wrong kind cannot be
stored. `parse` is the loop of `FlagSet.Parse`: it stops at the first argument
that is no flag, or after `--`, and a flag that is not boolean takes the next
argument whatever it is.

A command line that only sets flags is a list of settings (`cmdline`). Read from
the left each setting has its effect (`put`) and none is left over
(`parse_cmdline`); what a variable holds in the end depends on the settings of
this variable alone (`values_putAll`).

All that is looked at in an argument is ASCII. A character of a text may be read
as a code point or as a byte of a Go string that is not UTF-8.
-/
import GvisorTapVsock.Go.Strconv

namespace GvisorTapVsock.Go.Flag

open GvisorTapVsock.Go

/-- Why a value refuses a text. -/
inductive SetError where
  /-- `errParse` -/
  | parse
  /-- `errRange` -/
  | range
  deriving DecidableEq

/-- Why a command line is refused. -/
inductive ParseError where
  /-- `bad flag syntax: …` -/
  | badSyntax (arg : String)
  /-- `ErrHelp`: `-help` or `-h`, and no flag of this name -/
  | help
  /-- `flag provided but not defined: -…` -/
  | notDefined (name : String)
  /-- `flag needs an argument: -…` -/
  | needsArgument (name : String)
  /-- `invalid boolean value … for -…` -/
  | invalidBoolean (value name : String) (err : SetError)
  /-- `invalid value … for flag -…` -/
  | invalidValue (value name : String) (err : SetError)
  deriving DecidableEq

variable {ι : Type} {β : ι → Type}

/-- A flag set: the variable of each name, and what `flag.Value` says of a
variable. -/
structure FlagSet (β : ι → Type) where
  formal : GoMap String ι
  isBoolFlag : ι → Bool
  set : (i : ι) → β i → String → Except SetError (β i)

/-- The flags of a list of registrations; nothing is the panic of a second flag
of one name, or of a name no argument can spell. -/
def formalOf : List (String × ι) → Option (GoMap String ι)
  | [] => some ∅
  | (name, i) :: rest =>
      match formalOf rest with
      | none => none
      | some formal =>
          if name.toList.head? = some '-' ∨ '=' ∈ name.toList ∨ (formal.lookup name).isSome then
            none
          else some (formal.insert name i)

/-- What parsing changes: the variables, and `actual`, the names of the flags
that have been set. -/
structure State (β : ι → Type) where
  values : (i : ι) → β i
  actual : List String

theorem lookup_formalOf {registrations : List (String × ι)} {formal : GoMap String ι}
    (h : formalOf registrations = some formal) (name : String) (i : ι) :
    formal.lookup name = some i ↔ (name, i) ∈ registrations := by
  induction registrations generalizing formal with
  | nil =>
    obtain rfl : ∅ = formal := by simpa [formalOf] using h
    simp
  | cons r rest ih =>
    obtain ⟨n, j⟩ := r
    rw [formalOf] at h
    cases hrest : formalOf rest with
    | none => simp [hrest] at h
    | some m =>
      rw [hrest] at h
      dsimp only at h
      split at h
      · cases h
      · obtain rfl := Option.some.inj h
        have hnew : m.lookup n = none := by
          rw [← Option.not_isSome_iff_eq_none]
          tauto
        rw [GoMap.lookup_insert_eq, List.mem_cons, Prod.mk.injEq, ← ih hrest]
        by_cases hn : name = n
        · subst hn
          simp [hnew, eq_comm]
        · simp [hn]

variable [DecidableEq ι]

/-- A flag has been set. -/
def State.assign (s : State β) (name : String) (i : ι) (v : β i) : State β :=
  { values := Function.update s.values i v, actual := s.actual ++ [name] }

/-! ## The values of the package -/

/-- `boolValue.Set`. -/
def boolSet (text : String) : Except SetError Bool :=
  match parseBool text with
  | some b => .ok b
  | none => .error .parse

/-- `intValue.Set`, where an `int` has 64 bits. -/
def intSet (text : String) : Except SetError Int64 :=
  match parseInt text with
  | .ok v => .ok (Int64.ofInt v)
  | .error .invalid => .error .parse
  | .error .range => .error .range

/-- `stringValue.Set`. -/
def stringSet (text : String) : Except SetError String := .ok text

theorem intSet_itoa (x : Int64) : intSet (itoa x.toInt) = .ok x := by
  have hlo := x.le_toInt
  have hhi := x.toInt_lt
  have hread := parseInt_itoa (i := x.toInt) (by omega) (by omega)
  simp only [intSet, hread, Int64.ofInt_toInt]

/-! ## One argument -/

/-- An argument in the place of a flag. -/
inductive Arg where
  /-- not a flag -/
  | operand
  /-- `--` -/
  | terminator
  | bad
  /-- a flag, and the value after `=` -/
  | flag (name : String) (value : Option String)
  deriving DecidableEq

/-- What follows the minus signs. -/
def readName : List Char → Arg
  | [] => .bad
  | c :: name =>
      if c = '-' ∨ c = '=' then .bad
      else
        match name.idxOf? '=' with
        | none => .flag (String.ofList (c :: name)) none
        | some i =>
            .flag (String.ofList (c :: name.take i)) (some (String.ofList (name.drop (i + 1))))

/-- The syntax of an argument. -/
def readArg (s : String) : Arg :=
  match s.toList with
  | ['-', '-'] => .terminator
  | '-' :: '-' :: name => readName name
  | '-' :: c :: name => readName (c :: name)
  | _ => .operand

example : readArg "-mtu=1500" = .flag "mtu" (some "1500") := by decide
example : readArg "---" = .bad := by decide
example : readArg "-" = .operand := by decide

/-! ## The loop -/

/-- `f.Parse(args)`: the variables, and the arguments left over. -/
def parse (f : FlagSet β) (s : State β) : List String → Except ParseError (State β × List String)
  | [] => .ok (s, [])
  | arg :: args =>
      match readArg arg with
      | .operand => .ok (s, arg :: args)
      | .terminator => .ok (s, args)
      | .bad => .error (.badSyntax arg)
      | .flag name value =>
          match f.formal.lookup name with
          | none => .error (if name = "help" ∨ name = "h" then .help else .notDefined name)
          | some i =>
              if f.isBoolFlag i then
                match f.set i (s.values i) (value.getD "true") with
                | .error e => .error (.invalidBoolean (value.getD "true") name e)
                | .ok v => parse f (s.assign name i v) args
              else
                match value, args with
                | some text, args =>
                    match f.set i (s.values i) text with
                    | .error e => .error (.invalidValue text name e)
                    | .ok v => parse f (s.assign name i v) args
                -- the next argument, whatever it is
                | none, text :: args =>
                    match f.set i (s.values i) text with
                    | .error e => .error (.invalidValue text name e)
                    | .ok v => parse f (s.assign name i v) args
                | none, [] => .error (.needsArgument name)

/-! ## Settings -/

/-- A flag on a command line: its name, and the text it is set to unless it is
boolean and alone. -/
structure Setting where
  name : String
  text : Option String
  deriving DecidableEq

/-- The arguments of a setting, `-name` or `-name text`. -/
def Setting.args (a : Setting) : List String := ("-" ++ a.name) :: a.text.toList

/-- What the flag is set to. -/
def Setting.value (a : Setting) : String := a.text.getD "true"

/-- The arguments of a list of settings. -/
def cmdline (settings : List Setting) : List String := settings.flatMap Setting.args

/-- A name that an argument can spell. -/
def Spelled (name : String) : Prop :=
  name.toList ≠ [] ∧ name.toList.head? ≠ some '-' ∧ '=' ∉ name.toList

instance (name : String) : Decidable (Spelled name) := by unfold Spelled; infer_instance

/-- The settings a flag set takes at any time: of a flag it has, with a text
unless the flag is boolean, and one that the flag accepts. -/
structure Takes (f : FlagSet β) (a : Setting) (i : ι) : Prop where
  spelled : Spelled a.name
  lookup : f.formal.lookup a.name = some i
  isBoolFlag : f.isBoolFlag i = a.text.isNone
  set : ∀ v : β i, ∃ w, f.set i v a.value = .ok w

/-- What a variable holds after it has been set; a refused text changes
nothing. -/
def FlagSet.setTo (f : FlagSet β) (i : ι) (v : β i) (text : String) : β i :=
  match f.set i v text with
  | .ok w => w
  | .error _ => v

/-- The effect of a setting. -/
def put (f : FlagSet β) (s : State β) (a : Setting) : State β :=
  match f.formal.lookup a.name with
  | none => s
  | some i => s.assign a.name i (f.setTo i (s.values i) a.value)

/-- The effect of a list of settings. -/
def putAll (f : FlagSet β) (s : State β) (settings : List Setting) : State β :=
  settings.foldl (put f) s

theorem readArg_name {name : String} (h : Spelled name) :
    readArg ("-" ++ name) = .flag name none := by
  obtain ⟨hne, hminus, hequals⟩ := h
  have hlist : ("-" ++ name).toList = '-' :: name.toList := by simp
  cases hname : name.toList with
  | nil => exact absurd hname hne
  | cons c rest =>
    have hc : c ≠ '-' := fun hc => hminus (by simp [hname, hc])
    have hc' : c ≠ '=' := fun hc => hequals (by simp [hname, hc])
    have hrest : rest.idxOf? '=' = none := by
      rw [List.idxOf?_eq_none_iff]
      exact fun h => hequals (by simp [hname, h])
    have hread : readArg ("-" ++ name) = readName (c :: rest) := by
      unfold readArg
      rw [hlist, hname]
      split <;> simp_all
    rw [hread, readName, if_neg (by simp [hc, hc']), hrest, ← hname]
    simp

/-- A setting in front of any arguments is read, and the rest is left. -/
theorem parse_setting {f : FlagSet β} {a : Setting} {i : ι} (h : Takes f a i) (s : State β)
    (rest : List String) : parse f s (a.args ++ rest) = parse f (put f s a) rest := by
  obtain ⟨w, hw⟩ := h.set (s.values i)
  have hput : put f s a = s.assign a.name i w := by
    simp only [put, h.lookup, FlagSet.setTo, hw]
  rw [hput, Setting.args, List.cons_append, parse, readArg_name h.spelled]
  simp only [h.lookup, h.isBoolFlag]
  cases htext : a.text with
  | none =>
    rw [Setting.value, htext] at hw
    simp only [Option.isNone_none, if_true, Option.getD_none, hw] at hw ⊢
    rfl
  | some text =>
    rw [Setting.value, htext] at hw
    simp only [Option.getD_some] at hw
    simp [hw]

/-- **A command line of settings is read to its end, one after the other.** -/
theorem parse_cmdline {f : FlagSet β} {settings : List Setting}
    (h : ∀ a ∈ settings, ∃ i, Takes f a i) (s : State β) :
    parse f s (cmdline settings) = .ok (putAll f s settings, []) := by
  induction settings generalizing s with
  | nil => simp [cmdline, putAll, parse]
  | cons a settings ih =>
    obtain ⟨i, ha⟩ := h a (by simp)
    have hrest := ih (fun b hb => h b (by simp [hb])) (put f s a)
    rw [cmdline, List.flatMap_cons, parse_setting ha]
    exact hrest

/-! ## What the settings of one variable do -/

/-- The texts that a variable is set to. -/
def textsOf (f : FlagSet β) (i : ι) (settings : List Setting) : List String :=
  (settings.filter (fun a => f.formal.lookup a.name = some i)).map Setting.value

theorem textsOf_append (f : FlagSet β) (i : ι) (l l' : List Setting) :
    textsOf f i (l ++ l') = textsOf f i l ++ textsOf f i l' := by
  simp [textsOf]

theorem values_put (f : FlagSet β) (s : State β) (a : Setting) (i : ι) :
    (put f s a).values i = (textsOf f i [a]).foldl (f.setTo i) (s.values i) := by
  unfold put textsOf
  cases hlookup : f.formal.lookup a.name with
  | none => simp [hlookup]
  | some j =>
    by_cases hij : j = i
    · subst hij
      simp [hlookup, State.assign]
    · simp [hlookup, State.assign, hij, Function.update_of_ne (Ne.symm hij)]

/-- **A variable is set to the texts of its own flag, in their order.** -/
theorem values_putAll (f : FlagSet β) (i : ι) (settings : List Setting) (s : State β) :
    (putAll f s settings).values i = (textsOf f i settings).foldl (f.setTo i) (s.values i) := by
  induction settings generalizing s with
  | nil => rfl
  | cons a settings ih =>
    have hcons : textsOf f i (a :: settings) = textsOf f i [a] ++ textsOf f i settings :=
      textsOf_append f i [a] settings
    rw [hcons, List.foldl_append, ← values_put]
    exact ih (put f s a)

/-- The flags set in the end are those of the settings. -/
theorem mem_actual_putAll {f : FlagSet β} {settings : List Setting}
    (h : ∀ a ∈ settings, ∃ i, Takes f a i) (s : State β) (name : String) :
    name ∈ (putAll f s settings).actual ↔ name ∈ s.actual ∨ ∃ a ∈ settings, a.name = name := by
  induction settings generalizing s with
  | nil => simp [putAll]
  | cons a settings ih =>
    obtain ⟨i, ha⟩ := h a (by simp)
    have hrest := ih (fun b hb => h b (by simp [hb])) (put f s a)
    have hactual : (put f s a).actual = s.actual ++ [a.name] := by
      simp [put, ha.lookup, State.assign]
    rw [putAll, List.foldl_cons]
    refine hrest.trans ?_
    rw [hactual, List.mem_append, List.mem_singleton, or_assoc, List.exists_mem_cons_iff,
      eq_comm (a := name)]

/-! ## Settings of flags that take texts -/

/-- A flag given once for each text that is not empty. -/
def textSettings (name : String) (texts : List String) : List Setting :=
  (texts.filter (· ≠ "")).map (fun text => { name := name, text := some text })

theorem cmdline_append (l l' : List Setting) : cmdline (l ++ l') = cmdline l ++ cmdline l' :=
  List.flatMap_append

theorem cmdline_textSettings (name : String) (texts : List String) :
    cmdline (textSettings name texts) =
      texts.flatMap (fun text => if text ≠ "" then ["-" ++ name, text] else []) := by
  induction texts with
  | nil => rfl
  | cons text texts ih =>
    have hcons : textSettings name (text :: texts) =
        textSettings name [text] ++ textSettings name texts := by
      rw [textSettings, ← List.singleton_append, List.filter_append, List.map_append]
      rfl
    rw [hcons, cmdline_append, ih, List.flatMap_cons]
    by_cases htext : text = ""
    · simp [textSettings, cmdline, htext]
    · simp [textSettings, cmdline, Setting.args, htext]

theorem cmdline_flatMap {α : Type} (l : List α) (settings : α → List Setting) :
    cmdline (l.flatMap settings) = l.flatMap (fun x => cmdline (settings x)) :=
  List.flatMap_assoc

section
variable {f : FlagSet β} {i : ι} {name : String}

/-- The texts of a variable whose flag has the name `name`. -/
theorem textsOf_eq (hname : ∀ n, f.formal.lookup n = some i ↔ n = name) (settings : List Setting) :
    textsOf f i settings = (settings.filter (fun a => a.name = name)).map Setting.value := by
  simp only [textsOf, hname]

theorem textsOf_singleton (hname : ∀ n, f.formal.lookup n = some i ↔ n = name) (a : Setting) :
    textsOf f i [a] = if a.name = name then [a.value] else [] := by
  rw [textsOf_eq hname]
  by_cases h : a.name = name <;> simp [h]

theorem textsOf_textSettings (hname : ∀ n, f.formal.lookup n = some i ↔ n = name) (n : String)
    (texts : List String) :
    textsOf f i (textSettings n texts) = if n = name then texts.filter (· ≠ "") else [] := by
  rw [textsOf_eq hname, textSettings, List.filter_map, List.map_map]
  split
  · subst n
    simp [Function.comp_def, Setting.value]
  · simp [Function.comp_def, *]

theorem textsOf_ne_nil (hname : ∀ n, f.formal.lookup n = some i ↔ n = name)
    (settings : List Setting) : textsOf f i settings ≠ [] ↔ ∃ a ∈ settings, a.name = name := by
  rw [textsOf_eq hname, ne_eq, List.map_eq_nil_iff, List.filter_eq_nil_iff]
  push Not
  simp

/-- A loop over flags, in any order that comes to each one once, sets a variable
to the texts of its own flag. -/
theorem textsOf_range (hname : ∀ n, f.formal.lookup n = some i ↔ n = name)
    (texts : String → List String) {order : List String} (hnodup : order.Nodup)
    (hmissed : name ∉ order → texts name = []) :
    textsOf f i (order.flatMap (fun n => textSettings n (texts n))) =
      (texts name).filter (· ≠ "") := by
  have hloop : ∀ l : List String, l.Nodup →
      textsOf f i (l.flatMap (fun n => textSettings n (texts n))) =
        if name ∈ l then (texts name).filter (· ≠ "") else [] := by
    intro l hl
    induction l with
    | nil => rfl
    | cons n l ih =>
      obtain ⟨hn, hl⟩ := List.nodup_cons.mp hl
      rw [List.flatMap_cons, textsOf_append, textsOf_textSettings hname, ih hl]
      by_cases heq : n = name
      · subst heq
        simp [hn]
      · simp [heq, Ne.symm heq]
  rw [hloop order hnodup]
  split
  · rfl
  · rw [hmissed ‹_›]
    rfl

end

end GvisorTapVsock.Go.Flag
