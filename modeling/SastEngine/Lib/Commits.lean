import Mathlib.Data.List.Induction
import Mathlib.Tactic.Lemma

/-!
# Operations that commit

A store kept in memory and in a database of another shape.  An operation makes its changes one
after another: each changes the memory first and then commits to the database, or finds that there
is nothing to commit.  One commit may fail, which raises; what was changed before stays changed, and
handlers run from there.
-/

namespace Sast

/-- The two copies, and how many commits succeed before one fails, if one does. -/
structure Session (M D : Type) where
  memory : M
  database : D
  fuse : Option Nat

/-- A change: what it makes of the memory, and what it writes to the database, given the memory
before it. -/
structure Commit (M D : Type) where
  remember : M → M
  write : M → D → Option D

/-- An operation on both copies, which may raise. -/
abbrev Job (ε M D α : Type) : Type := ExceptT ε (StateM (Session M D)) α

variable {ε M D α β ι : Type}

/-- Make a change; `failure` is what a failing commit raises. -/
def Commit.perform (failure : ε) (c : Commit M D) : Job ε M D Unit := fun s =>
  match c.write s.memory s.database, s.fuse with
  | none, fuse => (.ok (), ⟨c.remember s.memory, s.database, fuse⟩)
  | some _, some 0 => (.error failure, ⟨c.remember s.memory, s.database, none⟩)
  | some database, some (n + 1) => (.ok (), ⟨c.remember s.memory, database, some n⟩)
  | some database, none => (.ok (), ⟨c.remember s.memory, database, none⟩)

/-- Make changes one after another; `commit` says what they are. -/
def performAll (failure : ε) (commit : ι → Commit M D) : List ι → Job ε M D Unit
  | [] => pure ()
  | c :: cs => do
      (commit c).perform failure
      performAll failure commit cs

/-! ## Running an operation -/

lemma bind_of_ok {x : Job ε M D α} {f : α → Job ε M D β} {s s' : Session M D} {a : α}
    (h : x s = (.ok a, s')) : (x >>= f) s = f a s' := by
  simp only [bind, ExceptT.bind, ExceptT.mk, StateT.bind, h]
  rfl

lemma bind_of_error {x : Job ε M D α} {f : α → Job ε M D β} {s s' : Session M D} {e : ε}
    (h : x s = (.error e, s')) : (x >>= f) s = (.error e, s') := by
  simp only [bind, ExceptT.bind, ExceptT.mk, StateT.bind, h]
  rfl

lemma tryCatch_of_ok {x : Job ε M D α} {handler : ε → Job ε M D α} {s s' : Session M D} {a : α}
    (h : x s = (.ok a, s')) : tryCatch x handler s = (.ok a, s') := by
  simp only [tryCatch, tryCatchThe, MonadExceptOf.tryCatch, ExceptT.tryCatch, ExceptT.mk, bind,
    StateT.bind, h]
  rfl

lemma tryCatch_of_error {x : Job ε M D α} {handler : ε → Job ε M D α} {s s' : Session M D} {e : ε}
    (h : x s = (.error e, s')) : tryCatch x handler s = handler e s' := by
  simp only [tryCatch, tryCatchThe, MonadExceptOf.tryCatch, ExceptT.tryCatch, ExceptT.mk, bind,
    StateT.bind, h]

lemma get_bind (f : Session M D → Job ε M D α) (s : Session M D) :
    ((get : Job ε M D (Session M D)) >>= f) s = f s s := rfl

lemma performAll_append (failure : ε) (commit : ι → Commit M D) (cs cs' : List ι) :
    performAll failure commit (cs ++ cs')
      = performAll failure commit cs >>= fun _ => performAll failure commit cs' := by
  induction cs with
  | nil => exact (pure_bind _ _).symm
  | cons c cs ih => simp only [List.cons_append, performAll, ih, bind_assoc]

/-! ## Changes one after another -/

/-- Both copies after a change whose commit succeeds. -/
def Commit.apply (c : Commit M D) (s : M × D) : M × D :=
  (c.remember s.1, (c.write s.1 s.2).getD s.2)

variable (commit : ι → Commit M D)

/-- Both copies after changes whose commits succeed. -/
def applyAll (cs : List ι) (s : M × D) : M × D := cs.foldl (fun s c => (commit c).apply s) s

/-- The changes that write something, in order. -/
def committing : List ι → M × D → List ι
  | [], _ => []
  | c :: cs, s =>
      (if ((commit c).write s.1 s.2).isSome then [c] else [])
        ++ committing cs ((commit c).apply s)

lemma applyAll_cons (c : ι) (cs : List ι) (s : M × D) :
    applyAll commit (c :: cs) s = applyAll commit cs ((commit c).apply s) := rfl

lemma applyAll_append (cs cs' : List ι) (s : M × D) :
    applyAll commit (cs ++ cs') s = applyAll commit cs' (applyAll commit cs s) :=
  List.foldl_append

lemma committing_append (cs cs' : List ι) (s : M × D) :
    committing commit (cs ++ cs') s
      = committing commit cs s ++ committing commit cs' (applyAll commit cs s) := by
  induction cs generalizing s with
  | nil => rfl
  | cons c cs ih => rw [List.cons_append, committing, committing, ih, List.append_assoc]; rfl

lemma length_committing_le (cs : List ι) (s : M × D) :
    (committing commit cs s).length ≤ cs.length := by
  induction cs generalizing s with
  | nil => exact Nat.le_refl 0
  | cons c cs ih =>
      rw [committing, List.length_append, List.length_cons, Nat.add_comm]
      refine Nat.add_le_add (ih _) ?_
      split_ifs <;> simp

variable {commit}

/-- Where every change writes something, so does every one of the first. -/
lemma length_committing_of_append {cs cs' : List ι} {s : M × D}
    (h : (committing commit (cs ++ cs') s).length = (cs ++ cs').length) :
    (committing commit cs s).length = cs.length := by
  rw [committing_append, List.length_append, List.length_append] at h
  have hcs := length_committing_le commit cs s
  have hcs' := length_committing_le commit cs' (applyAll commit cs s)
  omega

variable (failure : ε)

/-- Changes whose commits succeed. -/
lemma performAll_of_none (cs : List ι) (s : M × D) :
    performAll failure commit cs ⟨s.1, s.2, none⟩
      = (.ok (), ⟨(applyAll commit cs s).1, (applyAll commit cs s).2, none⟩) := by
  induction cs generalizing s with
  | nil => rfl
  | cons c cs ih =>
      have hstep : (commit c).perform failure ⟨s.1, s.2, none⟩
          = (.ok (), ⟨((commit c).apply s).1, ((commit c).apply s).2, none⟩) := by
        unfold Commit.perform Commit.apply
        cases (commit c).write s.1 s.2 <;> rfl
      rw [performAll, bind_of_ok hstep, ih]
      rfl

/-- Changes after the last of which the failing commit is still to come. -/
lemma performAll_of_le (cs : List ι) (s : M × D) {n : Nat}
    (h : (committing commit cs s).length ≤ n) :
    performAll failure commit cs ⟨s.1, s.2, some n⟩
      = (.ok (), ⟨(applyAll commit cs s).1, (applyAll commit cs s).2,
        some (n - (committing commit cs s).length)⟩) := by
  induction cs generalizing s n with
  | nil => rfl
  | cons c cs ih =>
      rw [committing, List.length_append] at h ⊢
      rw [applyAll_cons]
      cases hwrite : (commit c).write s.1 s.2 with
      | none =>
          have hstep : (commit c).perform failure ⟨s.1, s.2, some n⟩
              = (.ok (), ⟨((commit c).apply s).1, ((commit c).apply s).2, some n⟩) := by
            rw [Commit.perform, hwrite, Commit.apply, hwrite]
            rfl
          simp only [hwrite, Option.isSome_none, Bool.false_eq_true, if_false,
            List.length_nil] at h ⊢
          rw [performAll, bind_of_ok hstep, ih _ (by omega), Nat.zero_add]
      | some written =>
          simp only [hwrite, Option.isSome_some, if_true, List.length_singleton] at h ⊢
          cases n with
          | zero => omega
          | succ n =>
              have hstep : (commit c).perform failure ⟨s.1, s.2, some (n + 1)⟩
                  = (.ok (), ⟨((commit c).apply s).1, ((commit c).apply s).2, some n⟩) := by
                rw [Commit.perform, hwrite, Commit.apply, hwrite]
                rfl
              rw [performAll, bind_of_ok hstep, ih _ (by omega), Nat.add_comm 1,
                Nat.add_sub_add_right]

/-- **The failing commit.**  The changes before it are made on both copies, its own change is made
in memory only, and the changes after it are not made. -/
lemma performAll_of_lt (cs : List ι) (s : M × D) {n : Nat}
    (h : n < (committing commit cs s).length) :
    ∃ pre c post, cs = pre ++ c :: post ∧ (committing commit pre s).length = n
      ∧ ((commit c).write (applyAll commit pre s).1 (applyAll commit pre s).2).isSome
      ∧ performAll failure commit cs ⟨s.1, s.2, some n⟩
        = (.error failure, ⟨(commit c).remember (applyAll commit pre s).1,
          (applyAll commit pre s).2, none⟩) := by
  induction cs generalizing s n with
  | nil => cases h
  | cons c cs ih =>
      rw [committing, List.length_append] at h
      cases hwrite : (commit c).write s.1 s.2 with
      | none =>
          have hstep : (commit c).perform failure ⟨s.1, s.2, some n⟩
              = (.ok (), ⟨((commit c).apply s).1, ((commit c).apply s).2, some n⟩) := by
            rw [Commit.perform, hwrite, Commit.apply, hwrite]
            rfl
          simp only [hwrite, Option.isSome_none, Bool.false_eq_true, if_false, List.length_nil,
            Nat.zero_add] at h
          obtain ⟨pre, d, post, rfl, hcount, hsome, hperform⟩ := ih _ h
          refine ⟨c :: pre, d, post, rfl, ?_, hsome, ?_⟩
          · rw [committing, List.length_append]
            simpa [hwrite] using hcount
          · rw [performAll, bind_of_ok hstep, hperform, applyAll_cons]
      | some written =>
          simp only [hwrite, Option.isSome_some, if_true, List.length_singleton] at h
          cases n with
          | zero =>
              refine ⟨[], c, cs, rfl, rfl, ?_, ?_⟩
              · show ((commit c).write s.1 s.2).isSome
                rw [hwrite]
                rfl
              · have hstep : (commit c).perform failure ⟨s.1, s.2, some 0⟩
                    = (.error failure, ⟨(commit c).remember s.1, s.2, none⟩) := by
                  rw [Commit.perform, hwrite]
                rw [performAll, bind_of_error hstep]
                rfl
          | succ n =>
              have hstep : (commit c).perform failure ⟨s.1, s.2, some (n + 1)⟩
                  = (.ok (), ⟨((commit c).apply s).1, ((commit c).apply s).2, some n⟩) := by
                rw [Commit.perform, hwrite, Commit.apply, hwrite]
                rfl
              obtain ⟨pre, d, post, rfl, hcount, hsome, hperform⟩ :=
                @ih ((commit c).apply s) n (by omega)
              refine ⟨c :: pre, d, post, rfl, ?_, hsome, ?_⟩
              · rw [committing, List.length_append]
                simp only [hwrite, Option.isSome_some, if_true, List.length_singleton]
                omega
              · rw [performAll, bind_of_ok hstep, hperform, applyAll_cons]

/-- **Changes one of whose commits may fail**: the failing commit is still to come, or is one of
theirs. -/
lemma performAll_cases (cs : List ι) (s : M × D) (fails : Option Nat) :
    (∃ later, fails = later.map ((committing commit cs s).length + ·)
        ∧ performAll failure commit cs ⟨s.1, s.2, fails⟩
          = (.ok (), ⟨(applyAll commit cs s).1, (applyAll commit cs s).2, later⟩))
      ∨ ∃ pre c post, cs = pre ++ c :: post
        ∧ fails = some (committing commit pre s).length
        ∧ ((commit c).write (applyAll commit pre s).1 (applyAll commit pre s).2).isSome
        ∧ performAll failure commit cs ⟨s.1, s.2, fails⟩
          = (.error failure, ⟨(commit c).remember (applyAll commit pre s).1,
            (applyAll commit pre s).2, none⟩) := by
  cases fails with
  | none => exact Or.inl ⟨none, rfl, performAll_of_none failure cs s⟩
  | some n =>
      by_cases hn : n < (committing commit cs s).length
      · obtain ⟨pre, c, post, hsplit, hcount, hsome, hperform⟩ := performAll_of_lt failure cs s hn
        exact Or.inr ⟨pre, c, post, hsplit, congrArg some hcount.symm, hsome, hperform⟩
      · have hle := Nat.le_of_not_lt hn
        refine Or.inl ⟨some (n - (committing commit cs s).length), ?_,
          performAll_of_le failure cs s hle⟩
        rw [Option.map_some, Nat.add_sub_cancel' hle]

/-- An element of two lists one after the other is in the first or in the second. -/
lemma append_eq_append_cons {cs cs' pre post : List ι} {c : ι}
    (h : cs ++ cs' = pre ++ c :: post) :
    (∃ rest, cs = pre ++ c :: rest) ∨ ∃ pre', pre = cs ++ pre' ∧ cs' = pre' ++ c :: post := by
  rcases List.append_eq_append_iff.1 h with ⟨pre', hpre, hrest⟩ | ⟨rest, hcs, hrest⟩
  · exact Or.inr ⟨pre', hpre, hrest⟩
  · cases rest with
    | nil => exact Or.inr ⟨[], by rw [hcs, List.append_nil, List.append_nil], hrest.symm⟩
    | cons d rest =>
        obtain ⟨rfl, -⟩ := List.cons.inj hrest
        exact Or.inl ⟨rest, hcs⟩

/-- The change that fails is found in the list of those that write something. -/
lemma getElem?_committing {pre post : List ι} {c : ι} {s : M × D}
    (hsome : ((commit c).write (applyAll commit pre s).1 (applyAll commit pre s).2).isSome) :
    (committing commit (pre ++ c :: post) s)[(committing commit pre s).length]? = some c := by
  rw [committing_append, List.getElem?_append_right (Nat.le_refl _), Nat.sub_self, committing,
    if_pos hsome]
  rfl

/-- **An invariant of an operation**: it is kept by each change, whether or not its commit
succeeds. -/
lemma performAll_invariant (I : M × D → Prop) {cs : List ι}
    (happly : ∀ c ∈ cs, ∀ s, I s → I ((commit c).apply s))
    (hremember : ∀ c ∈ cs, ∀ s : M × D, I s → I ((commit c).remember s.1, s.2))
    {s : M × D} (h : I s) (fuse : Option Nat) :
    I ((performAll failure commit cs ⟨s.1, s.2, fuse⟩).2.memory,
      (performAll failure commit cs ⟨s.1, s.2, fuse⟩).2.database) := by
  have hall : ∀ pre : List ι, (∀ c ∈ pre, c ∈ cs) → I (applyAll commit pre s) := by
    intro pre hpre
    induction pre using List.reverseRecOn with
    | nil => exact h
    | append_singleton pre c ih =>
        rw [applyAll_append]
        refine happly c (hpre c (by simp)) _ (ih fun d hd => hpre d (by simp [hd]))
  rcases performAll_cases failure cs s fuse with ⟨later, -, hrun⟩ | ⟨pre, c, post, rfl, -, -, hrun⟩
  · rw [hrun]
    exact hall cs fun _ hc => hc
  · rw [hrun]
    refine hremember c (by simp) _ (hall pre fun d hd => by simp [hd])

end Sast
