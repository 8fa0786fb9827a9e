/-
# PluginVet.Proofs.Pointer — a pointer leads where its keys lead

An escaped key holds no slash and is unescaped to what it was, so a pointer written from keys is read
back as the same keys (`keys?_ofKeys`). It therefore names the value that the keys lead to
(`atPointer?_ofKeys`), and further keys lead on from there (`atPointer?_foldl_child`).

§A escaped keys, §B written pointers, §C values.
-/
import PluginVet.Pointer
import PluginVet.Proofs.Json.Canonical
import PluginVet.Proofs.Text.Search

namespace PluginVet.Pointer

variable {key : List Char} {c : Char}

/-! ## §A Escaped keys -/

theorem escape_tilde (key : List Char) : escape ('~' :: key) = '~' :: '0' :: escape key := rfl

theorem escape_slash (key : List Char) : escape ('/' :: key) = '~' :: '1' :: escape key := rfl

theorem escape_cons_of_ne (htilde : c ≠ '~') (hslash : c ≠ '/') :
    escape (c :: key) = c :: escape key := by
  simp [escape, Text.replaceChar, htilde, hslash]

theorem unescape_cons_of_ne (htilde : c ≠ '~') : unescape (c :: key) = c :: unescape key := by
  rw [unescape]
  · exact fun _ h => absurd h htilde
  · exact fun _ h => absurd h htilde

theorem unescape_escape (key : List Char) : unescape (escape key) = key := by
  induction key with
  | nil => rfl
  | cons c cs ih =>
      by_cases htilde : c = '~'
      · rw [htilde, escape_tilde, unescape, ih]
      · by_cases hslash : c = '/'
        · rw [hslash, escape_slash, unescape, ih]
        · rw [escape_cons_of_ne htilde hslash, unescape_cons_of_ne htilde, ih]

theorem slash_not_mem_escape (key : List Char) : '/' ∉ escape key := by
  induction key with
  | nil => exact List.not_mem_nil
  | cons c cs ih =>
      by_cases htilde : c = '~'
      · rw [htilde, escape_tilde]
        simpa using ih
      · by_cases hslash : c = '/'
        · rw [hslash, escape_slash]
          simpa using ih
        · rw [escape_cons_of_ne htilde hslash]
          simpa [Ne.symm hslash] using ih

/-! ## §B Written pointers -/

/-- Each key stands behind a slash. -/
theorem toList_foldl_child (parent : Pointer) (keys : List String) :
    (keys.foldl child parent).toList
      = parent.toList ++ keys.flatMap fun key => '/' :: escape key.toList := by
  induction keys generalizing parent with
  | nil => simp
  | cons key keys ih =>
      rw [List.foldl_cons, ih, child]
      simp

theorem flatMap_slash (piece : List Char) (pieces : List (List Char)) :
    (piece :: pieces).flatMap ('/' :: ·) = '/' :: List.intercalate ['/'] (piece :: pieces) := by
  induction pieces generalizing piece with
  | nil => simp [List.intercalate]
  | cons next rest ih =>
      rw [List.flatMap_cons, ih, Text.intercalate_cons_cons]
      rfl

theorem toList_ofKeys_cons (key : String) (keys : List String) :
    (ofKeys (key :: keys)).toList
      = '/' :: List.intercalate ['/'] ((key :: keys).map fun k => escape k.toList) := by
  rw [ofKeys, toList_foldl_child, List.map_cons, ← flatMap_slash, List.flatMap_cons,
    List.flatMap_cons, List.flatMap_map]
  rfl

/-- **`keys?_ofKeys`** — a pointer is read back as the keys that it was written from. -/
theorem keys?_ofKeys (keys : List String) : keys? (ofKeys keys) = some keys := by
  cases keys with
  | nil => rfl
  | cons key rest =>
      have hsplit : Text.splitOn '/' (List.intercalate ['/']
          ((key :: rest).map fun k => escape k.toList)) = (key :: rest).map fun k => escape k.toList := by
        refine Text.splitOn_intercalate (List.cons_ne_nil _ _) fun piece hpiece => ?_
        obtain ⟨k, -, rfl⟩ := List.mem_map.mp hpiece
        exact slash_not_mem_escape k.toList
      have hread : ∀ k : String, String.ofList (unescape (escape k.toList)) = k := by
        intro k
        rw [unescape_escape, String.ofList_toList]
      rw [keys?, toList_ofKeys_cons]
      show some ((Text.splitOn '/' _).map _) = _
      rw [hsplit, List.map_map]
      exact congrArg some ((List.map_congr_left fun k _ => hread k).trans (List.map_id _))

theorem ofKeys_append (keys more : List String) :
    ofKeys (keys ++ more) = more.foldl child (ofKeys keys) := List.foldl_append

theorem ofKeys_inj {keys keys' : List String} : ofKeys keys = ofKeys keys' ↔ keys = keys' := by
  refine ⟨fun h => ?_, congrArg ofKeys⟩
  have hread := congrArg keys? h
  rw [keys?_ofKeys, keys?_ofKeys] at hread
  exact Option.some.inj hread

end PluginVet.Pointer

namespace PluginVet.Json

/-! ## §C Values -/

variable {v : Json}

theorem at?_append (v : Json) (keys more : List String) :
    v.at? (keys ++ more) = (v.at? keys).bind (·.at? more) := by
  induction keys generalizing v with
  | nil => rfl
  | cons key rest ih =>
      rw [List.cons_append]
      cases v with
      | object fields =>
          rw [at?, at?]
          cases Keyed.get? fields key with
          | none => rfl
          | some w => exact ih w
      | array items =>
          rw [at?, at?]
          cases (index? key).bind (items[·]?) with
          | none => rfl
          | some w => exact ih w
      | _ => rfl

theorem at?_cons_of_field? {w : Json} {key : String} (h : v.field? key = some w)
    (keys : List String) : v.at? (key :: keys) = w.at? keys := by
  cases v with
  | object fields =>
      rw [at?]
      rw [show Keyed.get? fields key = some w from h, Option.bind_some]
  | _ => cases h

/-- What keys lead to in a canonical value is canonical. -/
theorem Canonical.of_at? {w : Json} {keys : List String} (h : v.Canonical)
    (hw : v.at? keys = some w) : w.Canonical := by
  induction keys generalizing v with
  | nil =>
      obtain rfl : v = w := Option.some.inj hw
      exact h
  | cons key rest ih =>
      cases v with
      | object fields =>
          obtain ⟨x, hx, hrest⟩ := Option.bind_eq_some_iff.mp hw
          exact ih (h.of_field? hx) hrest
      | array items =>
          obtain ⟨x, hx, hrest⟩ := Option.bind_eq_some_iff.mp hw
          obtain ⟨i, -, hi⟩ := Option.bind_eq_some_iff.mp hx
          exact ih (canonical_array_iff.mp h x (List.mem_of_getElem? hi)) hrest
      | _ => cases hw

/-- A key that is no index of an array leads into objects only. -/
theorem at?_singleton {key : String} (hkey : index? key = none) (v : Json) :
    v.at? [key] = v.field? key := by
  cases v with
  | object fields =>
      exact Option.bind_fun_some _
  | array items =>
      rw [at?, hkey]
      rfl
  | _ => rfl

/-- **`atPointer?_ofKeys`** — a pointer written from keys names what the keys lead to. -/
theorem atPointer?_ofKeys (v : Json) (keys : List String) :
    v.atPointer? (Pointer.ofKeys keys) = v.at? keys := by
  rw [atPointer?, Pointer.keys?_ofKeys]
  rfl

theorem Canonical.of_atPointer? {w : Json} {pointer : Pointer} (h : v.Canonical)
    (hw : v.atPointer? pointer = some w) : w.Canonical := by
  obtain ⟨keys, -, hkeys⟩ := Option.bind_eq_some_iff.mp hw
  exact h.of_at? hkeys

theorem atPointer?_foldl_child (v : Json) (keys more : List String) :
    v.atPointer? (more.foldl Pointer.child (Pointer.ofKeys keys))
      = (v.atPointer? (Pointer.ofKeys keys)).bind (·.at? more) := by
  rw [← Pointer.ofKeys_append, atPointer?_ofKeys, atPointer?_ofKeys, at?_append]

end PluginVet.Json
