/-
# PluginVet.Proofs.FileTree.Update — what an update leaves as it was

`FileNode.update` changes a tree at one location. Whatever lies neither above nor below that location is
untouched (`at?_update_of_apart`); above it, directories stay directories and files stay as they are
(`at?_update_eq_or`); below it stands what was put there (`at?_update_append`).

In an `Ordered` tree the entries of each directory are in the order of their names. In a `Sound` one the
names are besides such that a path can spell them, as they are on a disk. A `Proper` tree is sound and has
no links. Updates keep a tree proper (`Proper.update`).

§A looking into a tree, §B updates, §C ordered, sound and proper trees.
-/
import Mathlib.Data.List.Basic
import PluginVet.Proofs.Keyed
import PluginVet.Proofs.Path.Steps

namespace PluginVet.FileNode

open PluginVet.Path (IsEntryName)

variable {n : FileNode} {new : Option FileNode} {l l' r : Location} {name : String}

/-! ## §A Looking into a tree -/

/-- The node at `l` is a directory. -/
def DirAt (n : FileNode) (l : Location) : Prop := ∃ es, n.at? l = some (.directory es)

/-- The content of the file at `l`. -/
def fileAt? (n : FileNode) (l : Location) : Option ByteArray :=
  match n.at? l with
  | some (.file bytes) => some bytes
  | _ => none

theorem isDirectory_iff : n.isDirectory = true ↔ ∃ es, n = .directory es := by
  cases n with
  | directory es => exact ⟨fun _ => ⟨es, rfl⟩, fun _ => rfl⟩
  | file bytes => simp [isDirectory]
  | link target => simp [isDirectory]

@[simp] theorem at?_nil (n : FileNode) : n.at? [] = some n := rfl

theorem at?_cons (n : FileNode) (name : String) (rest : Location) :
    n.at? (name :: rest) = (Keyed.get? n.entries name).bind fun child => child.at? rest := by
  rw [at?]
  cases Keyed.get? n.entries name <;> rfl

theorem at?_append (n : FileNode) (l r : Location) :
    n.at? (l ++ r) = (n.at? l).bind fun m => m.at? r := by
  induction l generalizing n with
  | nil => rfl
  | cons name rest ih =>
      rw [List.cons_append, at?_cons, at?_cons, Option.bind_assoc]
      exact congrArg _ (funext fun child => ih child)

theorem fileAt?_eq_some_iff {bytes : ByteArray} :
    n.fileAt? l = some bytes ↔ n.at? l = some (.file bytes) := by
  unfold fileAt?
  split
  · rename_i b hb
    simp [hb]
  · rename_i hno
    constructor
    · intro h
      exact absurd h.symm (Option.some_ne_none bytes)
    · intro h
      exact absurd h (hno bytes)

theorem fileAt?_congr {m : FileNode} (h : n.at? l = m.at? l') : n.fileAt? l = m.fileAt? l' := by
  simp only [fileAt?, h]

theorem DirAt.fileAt?_eq_none (h : n.DirAt l) : n.fileAt? l = none := by
  obtain ⟨es, hes⟩ := h
  simp [fileAt?, hes]

/-- What lies below a node lies below a directory. -/
theorem dirAt_of_at?_append (hr : r ≠ []) (h : (n.at? (l ++ r)).isSome) : n.DirAt l := by
  rw [at?_append] at h
  cases hl : n.at? l with
  | none => simp [hl] at h
  | some m =>
      obtain ⟨name, rest, rfl⟩ := List.exists_cons_of_ne_nil hr
      cases m with
      | directory es => exact ⟨es, hl⟩
      | file bytes => simp [hl, at?_cons, entries, Keyed.get?] at h
      | link target => simp [hl, at?_cons, entries, Keyed.get?] at h

theorem at?_append_eq_none (h : n.at? l = none) (r : Location) : n.at? (l ++ r) = none := by
  rw [at?_append, h, Option.bind_none]

/-! ## §B Updates -/

theorem update_cons_of_not_directory (h : n.isDirectory = false) (new : Option FileNode)
    (name : String) (rest : Location) : n.update new (name :: rest) = n := by
  cases n with
  | directory es => exact absurd h.symm Bool.false_ne_true
  | file bytes => cases rest <;> rfl
  | link target => cases rest <;> rfl

/-- An update inside a directory gives a directory that differs in the entry on the way only. -/
theorem exists_update_cons_directory (es : List (String × FileNode)) (new : Option FileNode)
    (name : String) (rest : Location) :
    ∃ es', (directory es).update new (name :: rest) = .directory es' ∧
      ∀ k, Keyed.get? es' k = if name = k then
        (if rest = [] then new else (Keyed.get? es name).map (update new rest))
        else Keyed.get? es k := by
  cases rest with
  | nil =>
      cases new with
      | none => exact ⟨_, rfl, fun k => Keyed.get?_erase es name k⟩
      | some node => exact ⟨_, rfl, fun k => Keyed.get?_insert es name k node⟩
  | cons x xs =>
      cases hchild : Keyed.get? es name with
      | none =>
          refine ⟨es, by simp [update, hchild], fun k => ?_⟩
          by_cases hk : name = k
          · subst hk
            simp [hchild]
          · rw [if_neg hk]
      | some child =>
          refine ⟨Keyed.insert es name (child.update new (x :: xs)), by simp [update, hchild], ?_⟩
          intro k
          rw [Keyed.get?_insert]
          rfl

theorem at?_update_cons_cons (hdir : n.isDirectory = true) (new : Option FileNode)
    (name k : String) (rest r : Location) :
    (n.update new (name :: rest)).at? (k :: r) =
      if name = k then
        (if rest = [] then new else (Keyed.get? n.entries name).map (update new rest)).bind
          fun child => child.at? r
      else n.at? (k :: r) := by
  cases n with
  | directory es =>
      obtain ⟨es', hes', hget⟩ := exists_update_cons_directory es new name rest
      rw [hes', at?_cons, at?_cons]
      simp only [entries, hget]
      split <;> rfl
  | file bytes => exact absurd hdir Bool.false_ne_true
  | link target => exact absurd hdir Bool.false_ne_true

/-- An update is not seen from places that lie neither above nor below it. -/
theorem at?_update_of_apart (h : ¬ l <+: l') (h' : ¬ l' <+: l) :
    (n.update new l).at? l' = n.at? l' := by
  induction l generalizing n l' with
  | nil => exact absurd (List.nil_prefix) h
  | cons name rest ih =>
      cases l' with
      | nil => exact absurd (List.nil_prefix) h'
      | cons k r =>
          cases hdir : n.isDirectory with
          | false => rw [update_cons_of_not_directory hdir]
          | true =>
              rw [at?_update_cons_cons hdir]
              split
              · rename_i hk
                subst hk
                rw [List.cons_prefix_cons, not_and] at h h'
                have hrest : rest ≠ [] := fun hr => h rfl (hr ▸ List.nil_prefix)
                rw [if_neg hrest, at?_cons]
                cases Keyed.get? n.entries name with
                | none => rfl
                | some child => exact ih (h rfl) (h' rfl)
              · rfl

/-- Seen from anywhere but below it, an update changes at most the entries of directories. -/
theorem at?_update_eq_or (new : Option FileNode) (h : ¬ l <+: l') :
    (n.update new l).at? l' = n.at? l' ∨ (n.update new l).DirAt l' ∧ n.DirAt l' := by
  induction l generalizing n l' with
  | nil => exact absurd (List.nil_prefix) h
  | cons name rest ih =>
      cases hdir : n.isDirectory with
      | false =>
          rw [update_cons_of_not_directory hdir]
          exact Or.inl rfl
      | true =>
          cases l' with
          | nil =>
              cases n with
              | directory es =>
                  obtain ⟨es', hes', -⟩ := exists_update_cons_directory es new name rest
                  exact Or.inr ⟨⟨es', congrArg some hes'⟩, es, rfl⟩
              | file bytes => exact absurd hdir Bool.false_ne_true
              | link target => exact absurd hdir Bool.false_ne_true
          | cons k r =>
              -- The places have to begin with the same name for the update to come near.
              unfold DirAt
              rw [at?_update_cons_cons hdir]
              split
              · rename_i hk
                subst hk
                rw [List.cons_prefix_cons, not_and] at h
                have hrest : rest ≠ [] := fun hr => h rfl (hr ▸ List.nil_prefix)
                rw [if_neg hrest, at?_cons]
                cases Keyed.get? n.entries name with
                | none => exact Or.inl rfl
                | some child => exact ih (h rfl)
              · exact Or.inl rfl

theorem dirAt_update_iff (h : ¬ l <+: l') : (n.update new l).DirAt l' ↔ n.DirAt l' := by
  rcases at?_update_eq_or new h with heq | ⟨hnew, hold⟩
  · rw [DirAt, DirAt, heq]
  · exact ⟨fun _ => hold, fun _ => hnew⟩

theorem fileAt?_update (h : ¬ l <+: l') : (n.update new l).fileAt? l' = n.fileAt? l' := by
  rcases at?_update_eq_or new h with heq | ⟨hnew, hold⟩
  · exact fileAt?_congr heq
  · rw [hnew.fileAt?_eq_none, hold.fileAt?_eq_none]

/-- Below an update stands what was put there, provided that there is a directory to hold it. -/
theorem at?_update_append (hl : n.DirAt l) (new : Option FileNode) (name : String) (r : Location) :
    (n.update new (l ++ [name])).at? (l ++ [name] ++ r) = new.bind fun m => m.at? r := by
  induction l generalizing n with
  | nil =>
      obtain ⟨es, hes⟩ := hl
      obtain rfl : n = .directory es := Option.some.inj hes
      show ((directory es).update new [name]).at? (name :: r) = _
      rw [at?_update_cons_cons rfl, if_pos rfl, if_pos rfl]
  | cons k rest ih =>
      obtain ⟨es, hes⟩ := hl
      rw [at?_cons] at hes
      obtain ⟨child, hchild, hes⟩ := Option.bind_eq_some_iff.mp hes
      have hdir : n.isDirectory = true := by
        cases n with
        | directory es => rfl
        | file bytes => simp [entries, Keyed.get?] at hchild
        | link target => simp [entries, Keyed.get?] at hchild
      show (n.update new (k :: (rest ++ [name]))).at? (k :: (rest ++ [name] ++ r)) = _
      rw [at?_update_cons_cons hdir, if_pos rfl, if_neg (by simp), hchild]
      exact ih ⟨es, hes⟩

/-! ## §C Ordered, sound and proper trees -/

/-- **`Ordered n`** — each directory below `n` has its entries under distinct names, in order. -/
inductive Ordered : FileNode → Prop where
  | file (bytes : ByteArray) : Ordered (.file bytes)
  | link (target : Path) : Ordered (.link target)
  | directory {es : List (String × FileNode)} (sorted : Keyed.Sorted es)
      (children : ∀ p ∈ es, Ordered p.2) : Ordered (.directory es)

/-- **`Sound n`** — each directory below `n` has its entries under distinct names, in order, and a path can
spell these names. -/
inductive Sound : FileNode → Prop where
  | file (bytes : ByteArray) : Sound (.file bytes)
  | link (target : Path) : Sound (.link target)
  | directory {es : List (String × FileNode)} (sorted : Keyed.Sorted es)
      (names : ∀ p ∈ es, IsEntryName p.1) (children : ∀ p ∈ es, Sound p.2) :
      Sound (.directory es)

theorem Sound.ordered (hn : n.Sound) : n.Ordered := by
  induction hn with
  | file bytes => exact .file bytes
  | link target => exact .link target
  | directory hsorted _ _ ih => exact .directory hsorted ih

theorem Sound.of_get? {child : FileNode} (hn : n.Sound)
    (h : Keyed.get? n.entries name = some child) : IsEntryName name ∧ child.Sound := by
  cases hn with
  | file bytes => exact absurd h.symm (Option.some_ne_none child)
  | link target => exact absurd h.symm (Option.some_ne_none child)
  | directory hsorted hnames hchildren =>
      have hmem := Keyed.mem_of_get? h
      exact ⟨hnames _ hmem, hchildren _ hmem⟩

/-- What lies in a sound tree is sound, and a path can spell where it lies. -/
theorem Sound.at? {m : FileNode} (hn : n.Sound) (h : n.at? l = some m) :
    m.Sound ∧ ∀ name ∈ l, IsEntryName name := by
  induction l generalizing n with
  | nil =>
      obtain rfl : n = m := Option.some.inj h
      exact ⟨hn, fun _ h => absurd h List.not_mem_nil⟩
  | cons name rest ih =>
      rw [at?_cons] at h
      obtain ⟨child, hchild, h⟩ := Option.bind_eq_some_iff.mp h
      obtain ⟨hname, hsound⟩ := hn.of_get? hchild
      obtain ⟨hm, hrest⟩ := ih hsound h
      exact ⟨hm, List.forall_mem_cons.mpr ⟨hname, hrest⟩⟩

/-- **`Proper n`** — below `n` there are no symbolic links, and each directory has its entries under
distinct names, in order. -/
inductive Proper : FileNode → Prop where
  | file (bytes : ByteArray) : Proper (.file bytes)
  | directory {es : List (String × FileNode)} (sorted : Keyed.Sorted es)
      (names : ∀ p ∈ es, IsEntryName p.1) (children : ∀ p ∈ es, Proper p.2) :
      Proper (.directory es)

theorem proper_directory_iff {es : List (String × FileNode)} :
    Proper (.directory es) ↔
      Keyed.Sorted es ∧ (∀ p ∈ es, IsEntryName p.1) ∧ ∀ p ∈ es, Proper p.2 := by
  constructor
  · rintro ⟨⟩
    exact ⟨‹_›, ‹_›, ‹_›⟩
  · rintro ⟨hsorted, hnames, hchildren⟩
    exact .directory hsorted hnames hchildren

theorem Proper.sound (hn : n.Proper) : n.Sound := by
  induction hn with
  | file bytes => exact .file bytes
  | directory hsorted hnames _ ih => exact .directory hsorted hnames ih

theorem proper_empty : Proper (.directory []) :=
  .directory Keyed.sorted_nil (fun _ h => absurd h List.not_mem_nil)
    (fun _ h => absurd h List.not_mem_nil)

theorem Proper.of_get? {child : FileNode} (hn : n.Proper)
    (h : Keyed.get? n.entries name = some child) : IsEntryName name ∧ child.Proper := by
  cases hn with
  | file bytes => exact absurd h.symm (Option.some_ne_none child)
  | directory hsorted hnames hchildren =>
      have hmem := Keyed.mem_of_get? h
      exact ⟨hnames _ hmem, hchildren _ hmem⟩

/-- What lies in a proper tree is proper, and a path can spell where it lies. -/
theorem Proper.at? {m : FileNode} (hn : n.Proper) (h : n.at? l = some m) :
    m.Proper ∧ ∀ name ∈ l, IsEntryName name := by
  refine ⟨?_, (hn.sound.at? h).2⟩
  induction l generalizing n with
  | nil => exact Option.some.inj h ▸ hn
  | cons name rest ih =>
      rw [at?_cons] at h
      obtain ⟨child, hchild, h⟩ := Option.bind_eq_some_iff.mp h
      exact ih (hn.of_get? hchild).2 h

theorem Proper.not_link {target : Path} (hn : n.Proper) : n.at? l ≠ some (.link target) := by
  intro h
  cases (hn.at? h).1

theorem proper_insert {es : List (String × FileNode)} {child : FileNode}
    (hes : Proper (.directory es)) (hname : IsEntryName name) (hchild : child.Proper) :
    Proper (.directory (Keyed.insert es name child)) := by
  obtain ⟨hsorted, hnames, hchildren⟩ := proper_directory_iff.mp hes
  refine .directory (Keyed.sorted_insert hsorted name child) ?_ ?_
  · intro p hp
    rcases Keyed.eq_or_mem_of_mem_insert hp with rfl | hp
    · exact hname
    · exact hnames p hp
  · intro p hp
    rcases Keyed.eq_or_mem_of_mem_insert hp with rfl | hp
    · exact hchild
    · exact hchildren p hp

theorem proper_erase {es : List (String × FileNode)} (hes : Proper (.directory es))
    (name : String) : Proper (.directory (Keyed.erase es name)) := by
  obtain ⟨hsorted, hnames, hchildren⟩ := proper_directory_iff.mp hes
  exact .directory (Keyed.sorted_erase hsorted name)
    (fun p hp => hnames p (Keyed.mem_of_mem_erase hp))
    (fun p hp => hchildren p (Keyed.mem_of_mem_erase hp))

/-- An update keeps a tree proper, if what it puts in is proper and has a name that can be spelled. -/
theorem Proper.update (hn : n.Proper)
    (hnew : ∀ m, new = some m → m.Proper ∧ ∀ name ∈ l.getLast?, IsEntryName name) :
    (n.update new l).Proper := by
  induction l generalizing n with
  | nil =>
      cases new with
      | none => exact hn
      | some m => exact (hnew m rfl).1
  | cons name rest ih =>
      cases n with
      | file bytes => rwa [update_cons_of_not_directory rfl]
      | link target => cases hn
      | directory es =>
          cases rest with
          | nil =>
              cases new with
              | none => exact proper_erase hn name
              | some m =>
                  obtain ⟨hm, hname⟩ := hnew m rfl
                  exact proper_insert hn (hname name rfl) hm
          | cons x xs =>
              cases hchild : Keyed.get? es name with
              | none =>
                  -- A way that breaks off is not made.
                  have hsame : (FileNode.directory es).update new (name :: x :: xs) = .directory es := by
                    simp [FileNode.update, hchild]
                  rwa [hsame]
              | some child =>
                  have hstep : (FileNode.directory es).update new (name :: x :: xs)
                      = .directory (Keyed.insert es name (child.update new (x :: xs))) := by
                    simp [FileNode.update, hchild]
                  obtain ⟨hname, hproper⟩ := hn.of_get? hchild
                  rw [hstep]
                  refine proper_insert hn hname (ih hproper fun m hm => ?_)
                  rw [← List.getLast?_cons_cons (a := name)]
                  exact hnew m hm

end PluginVet.FileNode

namespace PluginVet.FileTree

/-- **`Sound t`** — a tree as directories, files and symbolic links on a disk can form one. -/
def Sound (t : FileTree) : Prop := t.root.Sound

/-- **`Proper t`** — a tree without symbolic links, as directories on a disk can form one. -/
def Proper (t : FileTree) : Prop := t.root.Proper

theorem Proper.sound {t : FileTree} (ht : t.Proper) : t.Sound := FileNode.Proper.sound ht

end PluginVet.FileTree
