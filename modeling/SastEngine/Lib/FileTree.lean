import Mathlib.Data.List.Infix
import Mathlib.Data.List.Pairwise
import Mathlib.Data.List.Perm.Basic
import Mathlib.Tactic.Lemma

/-!
# File trees

A directory is a list of named entries, each a leaf or a directory.  Where the names of each
directory are distinct, no leaf lies below another one (`pairwise_leaves`).  A walk visits the
directories from the top, leaves out those that are pruned, and sees every other leaf once
(`perm_walkedFiles`).
-/

namespace Sast

/-- A tree with names `N` and leaves `L`. -/
inductive FileTree (N L : Type) where
  | leaf (l : L)
  | dir (entries : List (N × FileTree N L))

namespace FileTree

variable {N L : Type}

/-! ## Leaves -/

mutual

/-- The leaves of a tree, with their paths. -/
def leaves : FileTree N L → List (List N × L)
  | .leaf l => [([], l)]
  | .dir entries => leavesIn entries

/-- The leaves below the entries of a directory. -/
def leavesIn : List (N × FileTree N L) → List (List N × L)
  | [] => []
  | (name, t) :: rest => t.leaves.map (Prod.map (name :: ·) id) ++ leavesIn rest

end

mutual

/-- The names of each directory are distinct. -/
def Distinct : FileTree N L → Prop
  | .leaf _ => True
  | .dir entries => (entries.map Prod.fst).Nodup ∧ DistinctIn entries

/-- In the directories below the entries, names are distinct. -/
def DistinctIn : List (N × FileTree N L) → Prop
  | [] => True
  | (_, t) :: rest => t.Distinct ∧ DistinctIn rest

end

/-- Neither path lies on the way to the other. -/
def Apart (p q : List N) : Prop := ¬ p <+: q ∧ ¬ q <+: p

lemma Apart.symm {p q : List N} (h : Apart p q) : Apart q p := ⟨h.2, h.1⟩

lemma Apart.ne {p q : List N} (h : Apart p q) : p ≠ q := by
  rintro rfl
  exact h.1 (List.prefix_refl p)

lemma apart_cons_iff {name name' : N} {p q : List N} :
    Apart (name :: p) (name' :: q) ↔ name ≠ name' ∨ Apart p q := by
  simp only [Apart, List.cons_prefix_cons]
  grind

/-- A leaf below the entries lies below one of them. -/
lemma exists_of_mem_leavesIn : ∀ {entries : List (N × FileTree N L)} {f : List N × L},
    f ∈ leavesIn entries → ∃ name ∈ entries.map Prod.fst, ∃ p, f.1 = name :: p := by
  intro entries
  induction entries with
  | nil => simp [leavesIn]
  | cons entry rest ih =>
      intro f hf
      rcases List.mem_append.1 hf with hf | hf
      · obtain ⟨g, -, rfl⟩ := List.mem_map.1 hf
        exact ⟨entry.1, List.mem_cons_self, g.1, rfl⟩
      · obtain ⟨name, hname, p, hp⟩ := ih hf
        exact ⟨name, List.mem_cons_of_mem _ hname, p, hp⟩

mutual

/-- **No leaf lies below another one** where the names of each directory are distinct. -/
theorem pairwise_leaves : ∀ t : FileTree N L, t.Distinct →
    t.leaves.Pairwise fun f g => Apart f.1 g.1
  | .leaf _, _ => List.pairwise_singleton _ _
  | .dir entries, h => pairwise_leavesIn entries h.1 h.2

theorem pairwise_leavesIn : ∀ entries : List (N × FileTree N L),
    (entries.map Prod.fst).Nodup → DistinctIn entries →
      (leavesIn entries).Pairwise fun f g => Apart f.1 g.1
  | [], _, _ => List.Pairwise.nil
  | (name, t) :: rest, hnames, h => by
      obtain ⟨hname, hrest⟩ := List.nodup_cons.1 hnames
      refine List.pairwise_append.2 ⟨?_, pairwise_leavesIn rest hrest h.2, ?_⟩
      · refine List.pairwise_map.2 ((pairwise_leaves t h.1).imp fun {f g} hfg => ?_)
        exact apart_cons_iff.2 (Or.inr hfg)
      · intro f hf g hg
        obtain ⟨f, -, rfl⟩ := List.mem_map.1 hf
        obtain ⟨name', hname', q, hq⟩ := exists_of_mem_leavesIn hg
        rw [hq]
        refine apart_cons_iff.2 (Or.inl ?_)
        rintro rfl
        exact hname hname'

end

/-! ## Walks -/

/-- What a walk comes across: a directory that it does not enter, or a file. -/
inductive WalkItem (N L : Type) where
  | pruned (path : List N)
  | file (path : List N) (l : L)

/-- The file of an item. -/
def WalkItem.file? : WalkItem N L → Option (List N × L)
  | .pruned _ => none
  | .file path l => some (path, l)

/-- How a walk is done: which leaves are listed among the directories, which directories are
pruned, and in which order the files of a directory come. -/
structure WalkOptions (N L : Type) where
  listedAsDir : L → Bool
  prune : N → Bool
  arrange : List (N × L) → List (N × L)

variable (o : WalkOptions N L)

/-- An entry is listed among the directories. -/
def WalkOptions.isDir : FileTree N L → Bool
  | .leaf l => o.listedAsDir l
  | .dir _ => true

/-- The leaf of an entry that is listed among the files. -/
def WalkOptions.fileOf (entry : N × FileTree N L) : Option (N × L) :=
  match entry.2 with
  | .leaf l => if o.listedAsDir l then none else some (entry.1, l)
  | .dir _ => none

/-- The items of one directory. -/
def WalkOptions.itemsIn (rel : List N) (entries : List (N × FileTree N L)) :
    List (WalkItem N L) :=
  (entries.filter fun entry => o.isDir entry.2 && o.prune entry.1).map
      (fun entry => .pruned (rel ++ [entry.1]))
    ++ (o.arrange (entries.filterMap o.fileOf)).map fun file => .file (rel ++ [file.1]) file.2

mutual

/-- The items of a walk from the top. -/
def walk (rel : List N) : FileTree N L → List (WalkItem N L)
  | .leaf _ => []
  | .dir entries => o.itemsIn rel entries ++ walkIn rel entries

/-- The items of the directories that are entered. -/
def walkIn (rel : List N) : List (N × FileTree N L) → List (WalkItem N L)
  | [] => []
  | (name, t) :: rest => (if o.prune name then [] else t.walk (rel ++ [name])) ++ walkIn rel rest

end

/-- The walk comes across a leaf: no directory above it is pruned, and it is listed among the
files. -/
def WalkOptions.Reaches (f : List N × L) : Bool :=
  f.1.dropLast.all (fun name => !o.prune name) && !o.listedAsDir f.2

/-- The files a walk comes across. -/
def walkedFiles (rel : List N) (t : FileTree N L) : List (List N × L) :=
  (t.walk o rel).filterMap WalkItem.file?

variable {o}

@[simp] lemma reaches_singleton (name : N) (l : L) :
    o.Reaches ([name], l) = !o.listedAsDir l := by
  simp [WalkOptions.Reaches]

lemma reaches_cons (name : N) {p : List N} (hp : p ≠ []) (l : L) :
    o.Reaches (name :: p, l) = (!o.prune name && o.Reaches (p, l)) := by
  simp [WalkOptions.Reaches, List.dropLast_cons_of_ne_nil hp, Bool.and_assoc]

lemma ne_nil_of_mem_leavesIn {entries : List (N × FileTree N L)} {f : List N × L}
    (hf : f ∈ leavesIn entries) : f.1 ≠ [] := by
  obtain ⟨name, -, p, hp⟩ := exists_of_mem_leavesIn hf
  simp [hp]

/-- The leaves that a walk reaches, under the path of the directory it starts in. -/
def WalkOptions.reached (o : WalkOptions N L) (rel : List N) (leaves : List (List N × L)) :
    List (List N × L) :=
  (leaves.filter o.Reaches).map (Prod.map (rel ++ ·) id)

/-- The reached leaves below a directory that is not pruned. -/
lemma reached_map_cons (rel : List N) (name : N) {leaves : List (List N × L)}
    (hne : ∀ f ∈ leaves, f.1 ≠ []) :
    o.reached rel (leaves.map (Prod.map (name :: ·) id))
      = if o.prune name then [] else o.reached (rel ++ [name]) leaves := by
  have hreaches : ∀ f ∈ leaves,
      o.Reaches (Prod.map (name :: ·) id f) = (!o.prune name && o.Reaches f) :=
    fun f hf => reaches_cons name (hne f hf) f.2
  unfold WalkOptions.reached
  rw [List.filter_map, List.map_map]
  split_ifs with hprune
  · rw [List.map_eq_nil_iff, List.filter_eq_nil_iff]
    intro f hf
    rw [Function.comp_apply, hreaches f hf, hprune]
    simp
  · have hfilter : leaves.filter (o.Reaches ∘ Prod.map (name :: ·) id)
        = leaves.filter o.Reaches := by
      refine List.filter_congr fun f hf => ?_
      rw [Function.comp_apply, hreaches f hf]
      simp [hprune]
    rw [hfilter]
    refine List.map_congr_left fun f _ => ?_
    simp [Prod.map]

/-- The files of the items of one directory. -/
lemma filterMap_itemsIn (rel : List N) (entries : List (N × FileTree N L)) :
    (o.itemsIn rel entries).filterMap WalkItem.file?
      = (o.arrange (entries.filterMap o.fileOf)).map fun file => (rel ++ [file.1], file.2) := by
  unfold WalkOptions.itemsIn
  rw [List.filterMap_append, List.filterMap_map, List.filterMap_map]
  have hpruned : ∀ dirs : List (N × FileTree N L),
      dirs.filterMap (WalkItem.file? ∘ fun entry => (.pruned (rel ++ [entry.1]) : WalkItem N L))
        = [] := by
    intro dirs
    exact List.filterMap_eq_nil_iff.2 fun _ _ => rfl
  rw [hpruned, List.nil_append]
  exact congrFun List.filterMap_eq_map _

/-- The files of a directory and of the directories below it are the leaves reached. -/
theorem perm_walkIn (harrange : ∀ files, (o.arrange files).Perm files) :
    ∀ (entries : List (N × FileTree N L)) (rel : List N),
      ((entries.filterMap o.fileOf).map (fun file => (rel ++ [file.1], file.2))
        ++ (walkIn o rel entries).filterMap WalkItem.file?).Perm
        (o.reached rel (leavesIn entries))
  | [], _ => List.Perm.refl _
  | (name, .leaf l) :: rest, rel => by
      have ih := perm_walkIn harrange rest rel
      have hwalk : walkIn o rel ((name, .leaf l) :: rest) = walkIn o rel rest := by
        simp [walkIn, walk]
      rw [hwalk]
      cases hdir : o.listedAsDir l with
      | true =>
          have hleaves : o.reached rel (leavesIn ((name, .leaf l) :: rest))
              = o.reached rel (leavesIn rest) := by
            simp [WalkOptions.reached, leavesIn, leaves, hdir]
          rw [hleaves, List.filterMap_cons_none (by simp [WalkOptions.fileOf, hdir])]
          exact ih
      | false =>
          have hleaves : o.reached rel (leavesIn ((name, .leaf l) :: rest))
              = (rel ++ [name], l) :: o.reached rel (leavesIn rest) := by
            simp [WalkOptions.reached, leavesIn, leaves, hdir]
          rw [hleaves, List.filterMap_cons_some (b := (name, l)) (by
            simp [WalkOptions.fileOf, hdir])]
          exact ih.cons _
  | (name, .dir sub) :: rest, rel => by
      have ih := perm_walkIn harrange rest rel
      have hsub : ((if o.prune name then [] else (FileTree.dir sub).walk o (rel ++ [name])).filterMap
            WalkItem.file?).Perm
          (o.reached rel ((leavesIn sub).map (Prod.map (name :: ·) id))) := by
        rw [reached_map_cons rel name fun f => ne_nil_of_mem_leavesIn]
        split_ifs with hprune
        · exact List.Perm.refl _
        · rw [walk, List.filterMap_append, filterMap_itemsIn]
          exact (((harrange _).map _).append_right _).trans
            (perm_walkIn harrange sub (rel ++ [name]))
      have hleaves : o.reached rel (leavesIn ((name, .dir sub) :: rest))
          = o.reached rel ((leavesIn sub).map (Prod.map (name :: ·) id))
            ++ o.reached rel (leavesIn rest) := by
        simp [WalkOptions.reached, leavesIn, leaves]
      rw [hleaves, List.filterMap_cons_none rfl, walkIn, List.filterMap_append,
        ← List.append_assoc]
      exact ((List.perm_append_comm.append_right _).trans
        (by rw [List.append_assoc])).trans (hsub.append ih)

/-- **A walk comes across every leaf that it reaches, once.** -/
theorem perm_walkedFiles (harrange : ∀ files, (o.arrange files).Perm files) (rel : List N)
    (entries : List (N × FileTree N L)) :
    (walkedFiles o rel (.dir entries)).Perm (o.reached rel (leavesIn entries)) := by
  rw [walkedFiles, walk, List.filterMap_append, filterMap_itemsIn]
  exact (((harrange _).map _).append_right _).trans (perm_walkIn harrange entries rel)

end FileTree

end Sast
