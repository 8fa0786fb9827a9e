/-
# PluginVet.Text.Search — pieces of a text

Search works on lists of characters, so that a hit is an equation: `breakOn? pat s = some (a, b)`
gives `s = a ++ pat ++ b` (`breakOn?_eq_append`).
-/

namespace PluginVet.Text

/-- The rest of `s` behind `head`, if `s` begins with it. -/
def dropHead? (head s : List Char) : Option (List Char) :=
  match head, s with
  | [], s => some s
  | _ :: _, [] => none
  | h :: hs, c :: cs => if h = c then dropHead? hs cs else none

/-- What stands before and behind the first occurrence of `pat` in `s`. -/
def breakOn? (pat s : List Char) : Option (List Char × List Char) :=
  match dropHead? pat s with
  | some rest => some ([], rest)
  | none =>
    match s with
    | [] => none
    | c :: cs => (breakOn? pat cs).map fun (a, b) => (c :: a, b)

/-- `pat` occurs somewhere in `s`. -/
def occursIn (pat s : List Char) : Bool := (breakOn? pat s).isSome

/-- The text without `tail` at its end, if it ends so. -/
def dropTail? (tail s : List Char) : Option (List Char) :=
  (dropHead? tail.reverse s.reverse).map List.reverse

/-- Every occurrence of the character `old` becomes the text `new`. -/
def replaceChar (old : Char) (new : List Char) (s : List Char) : List Char :=
  s.flatMap fun c => if c = old then new else [c]

/-- The pieces between the occurrences of a separator; never empty. -/
def splitOn (sep : Char) (s : List Char) : List (List Char) :=
  match s with
  | [] => [[]]
  | c :: cs =>
    if c = sep then [] :: splitOn sep cs
    else match splitOn sep cs with
      | [] => [[c]]
      | piece :: rest => (c :: piece) :: rest

theorem dropHead?_eq_append {head s rest : List Char} (h : dropHead? head s = some rest) :
    s = head ++ rest := by
  induction head generalizing s with
  | nil => simpa [dropHead?] using h
  | cons x xs ih =>
    cases s with
    | nil => simp [dropHead?] at h
    | cons c cs =>
      simp only [dropHead?] at h
      split at h
      · rename_i hc
        rw [ih h, hc, List.cons_append]
      · simp at h

theorem breakOn?_eq_append {pat s a b : List Char} (h : breakOn? pat s = some (a, b)) :
    s = a ++ pat ++ b := by
  induction s generalizing a with
  | nil =>
    unfold breakOn? at h
    split at h
    · rename_i rest hrest
      simp only [Option.some.injEq, Prod.mk.injEq] at h
      rw [← h.1, ← h.2, List.nil_append]
      exact dropHead?_eq_append hrest
    · simp at h
  | cons c cs ih =>
    unfold breakOn? at h
    split at h
    · rename_i rest hrest
      simp only [Option.some.injEq, Prod.mk.injEq] at h
      rw [← h.1, ← h.2, List.nil_append]
      exact dropHead?_eq_append hrest
    · simp only [Option.map_eq_some_iff, Prod.mk.injEq, Prod.exists] at h
      obtain ⟨a', b', hrec, rfl, rfl⟩ := h
      rw [ih hrec, List.cons_append, List.cons_append]

end PluginVet.Text
