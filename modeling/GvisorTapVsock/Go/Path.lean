/-
GvisorTapVsock.Go.Path — `path.Clean` on rooted paths, and `cleanPath` of
`net/http`.

A path is a list of characters. `path.Clean` reads it element by element: an
empty element and `.` are dropped, `..` takes the element before it along, if
there is one. `cleanPath` makes a path rooted, cleans it and puts a slash at
its end back.

The results of `cleanPath` are the canonical paths, `/a/b` or `/a/b/` with
elements that `Clean` keeps (`canonical_cleanPath`), and it leaves those as
they are (`cleanPath_of_canonical`).
-/
import GvisorTapVsock.Go.Bytes

namespace GvisorTapVsock.Go.Path

/-- One element of a path, on the elements so far. -/
def push (elems : List (List Char)) (e : List Char) : List (List Char) :=
  if e = [] ∨ e = ['.'] then elems
  -- a rooted path has nothing above its root
  else if e = ['.', '.'] then elems.dropLast
  else elems ++ [e]

/-- The elements that are left of a path. -/
def elements (p : List Char) : List (List Char) := (p.splitOn '/').foldl push []

/-- `path.Clean(p)`, for a path that begins with a slash. -/
def clean (p : List Char) : List Char := '/' :: ['/'].intercalate (elements p)

/-- `cleanPath(p)`. -/
def cleanPath (p : List Char) : List Char :=
  if p = [] then ['/']
  else
    let rooted := if p.head? = some '/' then p else '/' :: p
    let np := clean rooted
    if rooted.getLast? = some '/' ∧ np ≠ ['/'] then np ++ ['/'] else np

example : cleanPath "/a//b/./../c/".toList = "/a/c/".toList := by decide
example : cleanPath "..".toList = "/".toList := by decide

/-! ## Canonical paths -/

/-- An element that `Clean` keeps. -/
structure Kept (e : List Char) : Prop where
  ne_nil : e ≠ []
  ne_dot : e ≠ ['.']
  ne_dots : e ≠ ['.', '.']
  slash : '/' ∉ e

/-- The pieces between the slashes of a path with these elements, and perhaps a
slash at its end. -/
def pieces (elems : List (List Char)) (slash : Bool) : List (List Char) :=
  [] :: (elems ++ if slash then [[]] else [])

def ofElements (elems : List (List Char)) (slash : Bool) : List Char :=
  ['/'].intercalate (pieces elems slash)

def Canonical (p : List Char) : Prop :=
  ∃ elems slash, (∀ e ∈ elems, Kept e) ∧ (elems = [] → slash = true) ∧ p = ofElements elems slash

theorem slash_not_mem_pieces {elems : List (List Char)} (h : ∀ e ∈ elems, '/' ∉ e)
    (slash : Bool) : ∀ e ∈ pieces elems slash, '/' ∉ e := by
  intro e he
  rcases List.mem_cons.mp he with rfl | he
  · simp
  · rcases List.mem_append.mp he with he | he
    · exact h e he
    · cases slash <;> simp at he
      simp [he]

theorem splitOn_ofElements {elems : List (List Char)} (h : ∀ e ∈ elems, '/' ∉ e) (slash : Bool) :
    (ofElements elems slash).splitOn '/' = pieces elems slash :=
  List.splitOn_intercalate '/' (slash_not_mem_pieces h slash) (List.cons_ne_nil _ _)

theorem foldl_push_kept {elems : List (List Char)} (h : ∀ e ∈ elems, Kept e)
    (before : List (List Char)) : elems.foldl push before = before ++ elems := by
  induction elems generalizing before with
  | nil => simp
  | cons e elems ih =>
    have he := h e List.mem_cons_self
    have hpush : push before e = before ++ [e] := by
      simp [push, he.ne_nil, he.ne_dot, he.ne_dots]
    rw [List.foldl_cons, hpush, ih fun e' he' => h e' (List.mem_cons_of_mem e he')]
    simp

theorem elements_ofElements {elems : List (List Char)} (h : ∀ e ∈ elems, Kept e) (slash : Bool) :
    elements (ofElements elems slash) = elems := by
  have hempty : ∀ before, push before [] = before := fun before => by simp [push]
  rw [elements, splitOn_ofElements fun e he => (h e he).slash, pieces, List.foldl_cons, hempty,
    List.foldl_append, foldl_push_kept h]
  cases slash <;> simp [hempty]

/-- What is left of a path are elements that `Clean` keeps. -/
theorem kept_of_mem_elements {p e : List Char} (h : e ∈ elements p) : Kept e := by
  have hall : ∀ (more before : List (List Char)), (∀ e ∈ more, '/' ∉ e) →
      (∀ e ∈ before, Kept e) → ∀ e ∈ more.foldl push before, Kept e := by
    intro more
    induction more with
    | nil => exact fun before _ hbefore => hbefore
    | cons e more ih =>
      intro before hmore hbefore
      refine ih _ (fun e' he' => hmore e' (List.mem_cons_of_mem e he')) ?_
      unfold push
      split
      · exact hbefore
      · next hne =>
        split
        · exact fun e' he' => hbefore e' (List.dropLast_subset before he')
        · next hdots =>
          intro e' he'
          rcases List.mem_append.mp he' with he' | he'
          · exact hbefore e' he'
          · obtain rfl := List.mem_singleton.mp he'
            exact ⟨fun h => hne (Or.inl h), fun h => hne (Or.inr h), hdots,
              hmore e' List.mem_cons_self⟩
  refine hall (p.splitOn '/') [] (fun e he hmem => ?_) (by simp) e h
  have hpiece : ('/' == '/') = false := not_blank_of_mem_splitOnP he '/' hmem
  simp at hpiece

/-! ## Fixed points -/

theorem intercalate_concat {α : Type} (sep : List α) {l : List (List α)} (hl : l ≠ [])
    (x : List α) : sep.intercalate (l ++ [x]) = sep.intercalate l ++ sep ++ x := by
  induction l with
  | nil => exact absurd rfl hl
  | cons y l ih =>
    cases l with
    | nil => simp [List.intercalate_cons_cons]
    | cons z l =>
      have ih := ih (List.cons_ne_nil z l)
      rw [List.cons_append, List.cons_append, List.intercalate_cons_cons, ← List.cons_append, ih,
        List.intercalate_cons_cons]
      simp

theorem ofElements_false {elems : List (List Char)} (h : elems ≠ []) :
    ofElements elems false = '/' :: ['/'].intercalate elems := by
  obtain ⟨e, elems, rfl⟩ := List.exists_cons_of_ne_nil h
  simp [ofElements, pieces, List.intercalate_cons_cons]

theorem ofElements_true (elems : List (List Char)) :
    ofElements elems true = ofElements elems false ++ ['/'] := by
  have hconcat := intercalate_concat ['/'] (List.cons_ne_nil [] elems) []
  simpa [ofElements, pieces] using hconcat

theorem getLast_ofElements {elems : List (List Char)} (hne : elems ≠ [])
    (h : ∀ e ∈ elems, Kept e) : (ofElements elems false).getLast? ≠ some '/' := by
  rcases List.eq_nil_or_concat elems with rfl | ⟨init, e, rfl⟩
  · exact absurd rfl hne
  · have he := h e (by simp)
    have hlast : ofElements (init.concat e) false =
        ['/'].intercalate ([] :: init) ++ ['/'] ++ e := by
      have hconcat := intercalate_concat ['/'] (List.cons_ne_nil [] init) e
      simpa [ofElements, pieces] using hconcat
    rw [hlast, List.getLast?_append_of_ne_nil _ he.ne_nil]
    intro hslash
    exact he.slash (List.mem_of_getLast? hslash)

theorem head_ofElements (elems : List (List Char)) (slash : Bool)
    (h : elems = [] → slash = true) : (ofElements elems slash).head? = some '/' := by
  cases elems with
  | nil => simp [h rfl, ofElements, pieces, List.intercalate_cons_cons]
  | cons e elems => simp [ofElements, pieces, List.intercalate_cons_cons]

/-- **`cleanPath` leaves canonical paths as they are.** -/
theorem cleanPath_of_canonical {p : List Char} (h : Canonical p) : cleanPath p = p := by
  obtain ⟨elems, slash, hkept, hroot, rfl⟩ := h
  have hhead := head_ofElements elems slash hroot
  have hne : ofElements elems slash ≠ [] := by
    intro hnil
    simp [hnil] at hhead
  rw [cleanPath, if_neg hne]
  simp only [hhead, if_true]
  rw [clean, elements_ofElements hkept]
  by_cases hnil : elems = []
  · subst hnil
    rw [hroot rfl]
    rfl
  · rw [← ofElements_false hnil]
    have hnotRoot : ofElements elems false ≠ ['/'] := by
      intro hroot
      exact getLast_ofElements hnil hkept (by simp [hroot])
    cases slash with
    | true => simp [ofElements_true, hnotRoot]
    | false => simp [getLast_ofElements hnil hkept]

/-- **The results of `cleanPath` are canonical.** -/
theorem canonical_cleanPath (p : List Char) : Canonical (cleanPath p) := by
  have hroot : Canonical ['/'] := ⟨[], true, by simp, fun _ => rfl, rfl⟩
  unfold cleanPath
  split
  · exact hroot
  · generalize (if p.head? = some '/' then p else '/' :: p) = rooted
    by_cases hnil : elements rooted = []
    · have hclean : clean rooted = ['/'] := by simp [clean, hnil]
      simpa [hclean] using hroot
    · have hclean : clean rooted = ofElements (elements rooted) false :=
        (ofElements_false hnil).symm
      simp only [hclean]
      split
      · rw [← ofElements_true]
        exact ⟨_, true, fun e he => kept_of_mem_elements he, fun _ => rfl, rfl⟩
      · exact ⟨_, false, fun e he => kept_of_mem_elements he, fun h => absurd h hnil, rfl⟩

theorem Canonical.head {p : List Char} (h : Canonical p) : p.head? = some '/' := by
  obtain ⟨elems, slash, -, hroot, rfl⟩ := h
  exact head_ofElements elems slash hroot

/-- What comes before a path, if it is nothing in the end, is cleaned away. -/
theorem cleanPath_append {base p : List Char} (hbase : base = [] ∨ base.head? = some '/')
    (hnothing : elements base = []) (hp : Canonical p) : cleanPath (base ++ p) = p := by
  have hhead := hp.head
  obtain ⟨t, rfl⟩ : ∃ t, p = '/' :: t := by
    cases p with
    | nil => cases hhead
    | cons c t => exact ⟨t, by rw [Option.some.inj hhead]⟩
  have helements : elements (base ++ '/' :: t) = elements ('/' :: t) := by
    have hroot : elements ('/' :: t) = (t.splitOn '/').foldl push [] := by
      have hsplit : ('/' :: t).splitOn '/' = [[]] ++ t.splitOn '/' :=
        List.splitOn_append_cons_self [] t
      rw [elements, hsplit]
      rfl
    rw [hroot, elements, List.splitOn_append_cons_self, List.foldl_append, ← elements, hnothing]
  have hrooted : (base ++ '/' :: t).head? = some '/' := by
    rcases hbase with rfl | hbase
    · rfl
    · rw [List.head?_append, hbase]
      rfl
  have hlast : (base ++ '/' :: t).getLast? = ('/' :: t).getLast? :=
    List.getLast?_append_of_ne_nil _ (List.cons_ne_nil _ _)
  have hclean := cleanPath_of_canonical hp
  rw [cleanPath, if_neg (List.cons_ne_nil _ _)] at hclean
  rw [cleanPath, if_neg (by simp)]
  simpa only [hrooted, hhead, hlast, clean, helements, if_true] using hclean

/-- A slash after an element. -/
theorem Canonical.slash {p : List Char} (h : Canonical p) (hlast : p.getLast? ≠ some '/') :
    Canonical (p ++ ['/']) := by
  obtain ⟨elems, slash, hkept, hroot, rfl⟩ := h
  cases slash with
  | true => exact absurd (by simp [ofElements_true]) hlast
  | false => exact ⟨elems, true, hkept, fun _ => rfl, (ofElements_true elems).symm⟩

/-- What follows the first element of a canonical path is canonical. -/
theorem Canonical.tail {e rest : List Char} (he : '/' ∉ e)
    (h : Canonical ('/' :: e ++ '/' :: rest)) : Canonical ('/' :: rest) := by
  obtain ⟨elems, slash, hkept, -, hp⟩ := h
  -- the pieces of the path, cut at its first two slashes
  have hcut : ('/' :: e ++ '/' :: rest).splitOn '/' = [] :: e :: rest.splitOn '/' := by
    have hblank : ∀ c ∈ e, (c == '/') = false := by
      intro c hc
      simpa using fun heq : c = '/' => he (heq ▸ hc)
    rw [List.splitOn, List.cons_append, List.splitOnP_cons_eq_if_modifyHead, if_pos (by rfl),
      List.splitOnP_append_cons_of_forall_mem hblank '/' (by rfl), List.splitOn]
  rw [hp, splitOn_ofElements (fun e he => (hkept e he).slash) slash] at hcut
  have hrest := (List.cons.inj hcut).2
  have hjoin : ['/'].intercalate (rest.splitOn '/') = rest := List.intercalate_splitOn '/'
  have hsome : rest.splitOn '/' ≠ [] := List.splitOnP_ne_nil _ _
  cases elems with
  | nil =>
    cases slash with
    | true => exact absurd (List.cons.inj hrest).2.symm hsome
    | false => cases hrest
  | cons e' elems =>
    have hpieces : (elems ++ if slash then [[]] else []) = rest.splitOn '/' :=
      (List.cons.inj hrest).2
    refine ⟨elems, slash, fun x hx => hkept x (List.mem_cons_of_mem e' hx), ?_, ?_⟩
    · rintro rfl
      cases slash with
      | true => rfl
      | false => exact absurd hpieces.symm hsome
    · obtain ⟨first, more, hsplit⟩ := List.exists_cons_of_ne_nil hsome
      rw [ofElements, pieces, hpieces, hsplit, List.intercalate_cons_cons, ← hsplit, hjoin]
      rfl

end GvisorTapVsock.Go.Path
