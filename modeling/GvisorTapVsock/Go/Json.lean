/-
GvisorTapVsock.Go.Json — JSON, as `encoding/json` decodes it into Go values.

A text is the value it spells here; what is modelled is the way from a value to
a struct with its tags, which has rules of its own. A member is stored in the
field of that name, or else of that name up to case; other members are
skipped. A value of a wrong type is skipped too: the first one is remembered,
decoding goes on, and the error comes at the end. `null` keeps a string and a
struct as they are, and empties a slice.

`Decoder α` decodes over a value that is there already, as `Decode` does.
`members_cons` and `elems_eq_ok` take the objects and arrays of `json.Marshal`
apart again, and `IP.unmarshalText_marshalText` the addresses in them.
-/
import GvisorTapVsock.Go.NetTheorems

namespace GvisorTapVsock.Go

/-- A value of JSON; the members of an object are in the order of the text. -/
inductive Json where
  | null
  | bool (b : Bool)
  | num (text : String)
  | str (s : String)
  | arr (elems : List Json)
  | obj (members : List (String × Json))

namespace Json

/-- `Value` of an `UnmarshalTypeError`. -/
def kind : Json → String
  | .null => "null"
  | .bool _ => "bool"
  | .num _ => "number"
  | .str _ => "string"
  | .arr _ => "array"
  | .obj _ => "object"

/-- The error of an `UnmarshalTypeError`; `target` is what it would go into. -/
def typeError (j : Json) (target : String) : String :=
  "json: cannot unmarshal " ++ j.kind ++ " into " ++ target

/-- Decodes over a value. The result has the type error to report at the end;
an error that is not of that kind ends the decoding. -/
abbrev Decoder (α : Type) := α → Json → Except String (α × Option String)

variable {α : Type}

/-- A field of kind string. -/
def string (target : String) : Decoder String
  | _, .str s => .ok (s, none)
  | old, .null => .ok (old, none)
  | old, j => .ok (old, some (j.typeError target))

/-- A field of a slice type with an `UnmarshalText`. -/
def text (unmarshal : String → Except String (List α)) (target : String) : Decoder (List α)
  | _, .str s => (unmarshal s).map fun a => (a, none)
  | _, .null => .ok ([], none)
  | old, j => .ok (old, some (j.typeError target))

/-- The elements of an array, over those of the slice. -/
def elems (elem : Decoder α) (zero : α) :
    List α → List Json → Except String (List α × Option String)
  | _, [] => .ok ([], none)
  | old, j :: js => do
      let (a, err) ← elem (old.headD zero) j
      let (as, err') ← elems elem zero old.tail js
      return (a :: as, err.or err')

/-- A field of kind slice. -/
def slice (elem : Decoder α) (zero : α) (target : String) : Decoder (List α)
  | old, .arr js => elems elem zero old js
  | _, .null => .ok ([], none)
  | old, j => .ok (old, some (j.typeError target))

/-- A field that points to a value; a nil pointer gets a new one. -/
def pointer (elem : Decoder α) (zero : α) : Decoder (Option α)
  | _, .null => .ok (none, none)
  | old, j => (elem (old.getD zero) j).map fun (a, err) => (some a, err)

/-- Letters that a name in ASCII is equal to, up to case. -/
def foldChar (c : Char) : Char :=
  if c = '\u017f' then 's' else if c = '\u212a' then 'k' else c.toLower

def equalFold (s t : String) : Bool := s.toList.map foldChar = t.toList.map foldChar

/-- The fields of a struct, by their names in JSON: how a member is decoded
into the struct. -/
abbrev Fields (α : Type) := List (String × Decoder α)

/-- The field a member goes to. -/
def field? (fields : Fields α) (name : String) : Option (Decoder α) :=
  ((fields.find? fun f => f.1 = name).or (fields.find? fun f => equalFold f.1 name)).map Prod.snd

/-- The members of an object. -/
def members (fields : Fields α) : α → List (String × Json) → Except String (α × Option String)
  | a, [] => .ok (a, none)
  | a, (name, j) :: rest =>
      match field? fields name with
      | none => members fields a rest
      | some field => do
          let (a, err) ← field a j
          let (a, err') ← members fields a rest
          return (a, err.or err')

/-- A value of kind struct. -/
def struct (fields : Fields α) (target : String) : Decoder α
  | old, .obj ms => members fields old ms
  | old, .null => .ok (old, none)
  | old, j => .ok (old, some (j.typeError target))

/-- A member that is decoded into a part of the struct. -/
def Decoder.at {β : Type} (d : Decoder β) (get : α → β) (set : β → α → α) : Decoder α :=
  fun a j => (d (get a) j).map fun (b, err) => (set b a, err)

/-- `json.NewDecoder(r).Decode(&v)`, for a variable with its zero value. -/
def decode (d : Decoder α) (zero : α) (j : Json) : Except String α :=
  match d zero j with
  | .error err => .error err
  | .ok (_, some err) => .error err
  | .ok (a, none) => .ok a

/-! ## Round trips -/

theorem decode_eq_ok {d : Decoder α} {zero a : α} {j : Json} (h : d zero j = .ok (a, none)) :
    decode d zero j = .ok a := by
  simp only [decode, h]

/-- An array is decoded element by element. -/
theorem elems_eq_ok {β : Type} {elem : Decoder α} {zero : α} {f : β → α} {bs : List β}
    {js : List Json} (h : List.Forall₂ (fun b j => elem zero j = .ok (f b, none)) bs js) :
    elems elem zero [] js = .ok (bs.map f, none) := by
  induction h with
  | nil => rfl
  | cons hb _ ih =>
    simp only [List.map_cons, elems, List.headD_nil, List.tail_nil, hb, ih]
    rfl

/-- A slice is encoded element by element. -/
theorem mapM_eq_ok {β : Type} {marshal : β → Except String Json} {P : β → Json → Prop}
    {bs : List β} (h : ∀ b ∈ bs, ∃ j, marshal b = .ok j ∧ P b j) :
    ∃ js, bs.mapM marshal = .ok js ∧ List.Forall₂ P bs js := by
  induction bs with
  | nil => exact ⟨[], rfl, .nil⟩
  | cons b bs ih =>
    obtain ⟨j, hj, hb⟩ := h b List.mem_cons_self
    obtain ⟨js, hjs, hbs⟩ := ih fun b hb => h b (List.mem_cons_of_mem _ hb)
    refine ⟨j :: js, ?_, .cons hb hbs⟩
    rw [List.mapM_cons, hj, hjs]
    rfl

/-- The first element that cannot be encoded gives the error. -/
theorem mapM_eq_error {β : Type} {marshal : β → Except String Json} {before after : List β} {b : β}
    {err : String} (h : ∀ b ∈ before, ∃ j, marshal b = .ok j) (hb : marshal b = .error err) :
    (before ++ b :: after).mapM marshal = .error err := by
  induction before with
  | nil =>
    rw [List.nil_append, List.mapM_cons, hb]
    rfl
  | cons b' before ih =>
    obtain ⟨j, hj⟩ := h b' List.mem_cons_self
    have hrest := ih fun b hb => h b (List.mem_cons_of_mem _ hb)
    rw [List.cons_append, List.mapM_cons, hj, hrest]
    rfl

/-- A member whose name is that of a field is decoded into it. -/
theorem members_cons {fields : Fields α} {name : String} (field : Decoder α) {a b : α} {j : Json}
    {rest : List (String × Json)} (hfield : field? fields name = some field)
    (h : field a j = .ok (b, none)) :
    members fields a ((name, j) :: rest) = members fields b rest := by
  simp only [members, hfield, h]
  change (members fields b rest >>= fun p => pure (p.1, none.or p.2)) = _
  cases members fields b rest with
  | error err => rfl
  | ok p => rfl

theorem at_eq_ok {β : Type} {d : Decoder β} {get : α → β} {set : β → α → α} {a : α} {b : β}
    {j : Json} (h : d (get a) j = .ok (b, none)) :
    d.at get set a j = .ok (set b a, none) := by
  rw [Decoder.at, h]
  rfl

theorem text_eq_ok {unmarshal : String → Except String (List α)} {s target : String}
    {old as : List α} (h : unmarshal s = .ok as) :
    text unmarshal target old (.str s) = .ok (as, none) := by
  rw [text, h]
  rfl

end Json

/-! ## Addresses -/

/-- `hexString(b)`. -/
def hexString (bs : List UInt8) : String := String.ofList (bs.flatMap hex2)

/-- The error of `json.Marshal` for an address of another length. -/
def IP.marshalError (ip : IP) : String :=
  "json: error calling MarshalText for type net.IP: address " ++ hexString ip ++
    ": invalid IP address"

/-- `ip.MarshalText()`, in `json.Marshal`. -/
def IP.marshalText (ip : IP) : Except String String :=
  if ip.length = 0 then .ok ""
  else if ip.length ≠ 4 ∧ ip.length ≠ 16 then .error ip.marshalError
  else .ok ip.string

/-- `ip.UnmarshalText(text)`. -/
def IP.unmarshalText (text : String) : Except String IP :=
  if text = "" then .ok []
  else if parseIP text = [] then .error ("invalid IP address: " ++ text)
  else .ok (parseIP text)

/-- The addresses that can be marshalled. -/
def IP.Valid (ip : IP) : Prop := ip.length = 0 ∨ ip.length = 4 ∨ ip.length = 16

instance (ip : IP) : Decidable ip.Valid := inferInstanceAs (Decidable (_ ∨ _ ∨ _))

theorem IP.marshalText_eq_error {ip : IP} (h : ¬ ip.Valid) :
    ip.marshalText = .error ip.marshalError := by
  simp only [IP.Valid, not_or] at h
  rw [IP.marshalText, if_neg h.1, if_pos h.2]

/-- What is left of an address on its way through a text: the form of sixteen
bytes. -/
def IP.canonical (ip : IP) : IP := ip.to16.getD []

theorem IP.unmarshalText_marshalText {ip : IP} (h : ip.Valid) :
    ∃ text, ip.marshalText = .ok text ∧ IP.unmarshalText text = .ok ip.canonical := by
  by_cases h0 : ip.length = 0
  · refine ⟨"", if_pos h0, ?_⟩
    have hnone : ip.to16 = none := by simp [IP.to16, h0]
    rw [IP.canonical, hnone]
    rfl
  · have hlen : ¬ (ip.length ≠ 4 ∧ ip.length ≠ 16) := by
      rcases h with h | h | h <;> omega
    obtain ⟨x, hx⟩ : ∃ x, ip.to16 = some x := by
      unfold IP.to16
      split
      · exact ⟨_, rfl⟩
      · rw [if_pos (by omega)]
        exact ⟨_, rfl⟩
    have hparse := parseIP_string hx
    have hne : x ≠ [] := by
      rintro rfl
      exact absurd (length_of_to16 hx).1 (by decide)
    refine ⟨ip.string, by rw [IP.marshalText, if_neg h0, if_neg hlen], ?_⟩
    have htext : ip.string ≠ "" := by
      intro htext
      rw [htext] at hparse
      exact hne (hparse.symm.trans (by decide))
    rw [IP.unmarshalText, if_neg htext, hparse, if_neg hne, IP.canonical, hx]
    rfl

end GvisorTapVsock.Go
