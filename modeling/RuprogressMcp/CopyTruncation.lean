import RuprogressMcp.IssueCopy

/-!
# What a truncated copy means

The source issues form a tree.  The copy takes every issue at most once and
hangs it under the copy of its parent, and it misses nothing without saying
so.  It says so too often, though: an issue at the depth limit counts as
truncated before anybody asked for its children, and so does an issue whose
children could not be listed.  When such an issue has no children, the copy
may be complete all the same.
-/

namespace RuprogressMcp

/-- The source issues with their children, as a listing returns them. -/
structure SourceTree where
  root : ℕ
  children : ℕ → List SourceIssue
  parent : ℕ → ℕ
  depth : ℕ → ℕ
  depth_root : depth root = 0
  parent_eq : ∀ x, ∀ child ∈ children x, parent child.id = x
  depth_eq : ∀ x, ∀ child ∈ children x, depth child.id = depth x + 1
  nodup : ∀ x, ((children x).map SourceIssue.id).Nodup

/-- The root and its descendants. -/
inductive SourceTree.Contains (tree : SourceTree) : ℕ → Prop
  | root : tree.Contains tree.root
  | child {x : ℕ} {child : SourceIssue} (hx : tree.Contains x)
      (hchild : child ∈ tree.children x) : tree.Contains child.id

def SourceTree.Descendant (tree : SourceTree) (x : ℕ) : Prop :=
  tree.Contains x ∧ x ≠ tree.root

/-- A successful listing returns exactly the direct children. -/
def CopyAnswers.ListsChildren (answers : CopyAnswers) (tree : SourceTree) :
    Prop :=
  ∀ x children, answers.listSubtasks x = .ok children →
    children = tree.children x

section Inputs

variable (tree : SourceTree) (answers : CopyAnswers)

/-- An issue that the copy counts as truncated when its turn comes. -/
def CutAt (x : ℕ) : Prop :=
  copyMaxDepth ≤ tree.depth x ∨ ∃ e, answers.listSubtasks x = .error e

/-- Something keeps the copy from being complete: children below the depth
limit or behind a failed listing, a failed creation, or too many issues. -/
def Obstacle : Prop :=
  (∃ x, tree.Contains x ∧ tree.children x ≠ [] ∧ CutAt tree answers x) ∨
    (∃ x, tree.Descendant x ∧ ∃ e, answers.createIssue x = .error e) ∨
    ∃ descendants : List ℕ, descendants.Nodup ∧
      (∀ x ∈ descendants, tree.Descendant x) ∧
      copyMaxTotal ≤ descendants.length

/-- An issue without children is counted as truncated. -/
def CutLeaf : Prop :=
  ∃ x, tree.Contains x ∧ tree.children x = [] ∧ CutAt tree answers x

end Inputs

/-! ## The issues copied so far -/

section Copied

variable (tree : SourceTree) (answers : CopyAnswers) (target : RedmineClient.ProjectIdent)
  (newRoot : ℕ)

def Copied (state : CopyState) (x : ℕ) : Prop :=
  x = tree.root ∨ x ∈ state.created.map Copy.source

/-- The id of the copy of an issue. -/
def CopyId (state : CopyState) (x id : ℕ) : Prop :=
  (x = tree.root ∧ id = newRoot) ∨
    ∃ copy ∈ state.created, copy.source = x ∧ copy.id = id

/-- A created issue is the copy of a child, under the copy of its parent. -/
structure FaithfulCopy (state : CopyState) (copy : Copy) : Prop where
  sent : ∃ child ∈ tree.children (tree.parent copy.source), ∃ newParent,
    child.id = copy.source ∧
      copy.create = childCreate target newParent child ∧
      CopyId tree newRoot state (tree.parent copy.source) newParent
  contained : tree.Contains (tree.parent copy.source)
  uncut : ¬ CutAt tree answers (tree.parent copy.source)
  answered : answers.createIssue copy.source = .ok copy.id

structure FaithfulPending (state : CopyState) (pending : Pending) : Prop where
  contained : tree.Contains pending.source
  depth : pending.depth = tree.depth pending.source
  copy : CopyId tree newRoot state pending.source pending.newParent

/-- The counters and the created issues; `working` is the issue whose
children are being copied. -/
structure Faithful (working : Option ℕ) (state : CopyState) : Prop where
  total : state.totalCreated = state.created.length + 1
  bound : state.totalCreated ≤ copyMaxTotal
  count : state.subtasksCopied = state.created.length
  nodup : (state.created.map Copy.source).Nodup
  created : ∀ copy ∈ state.created,
    FaithfulCopy tree answers target newRoot state copy
  pending : ∀ pending ∈ state.queue,
    FaithfulPending tree newRoot state pending
  queued : (state.queue.map Pending.source).Nodup
  closed : ∀ copy ∈ state.created,
    tree.parent copy.source ∉ state.queue.map Pending.source
  away : ∀ x ∈ working, x ∉ state.queue.map Pending.source

/-- What the flag stands for, seen from the issues that are not open. -/
structure Flagged (isOpen : ℕ → Prop) (state : CopyState) : Prop where
  closed : ∀ x, Copied tree state x → isOpen x ∨
    (state.subtasksTruncated = true ∧ Obstacle tree answers) ∨
    ∀ child ∈ tree.children x, Copied tree state child.id
  reason : state.subtasksTruncated = true →
    Obstacle tree answers ∨ CutLeaf tree answers
  noted : ∀ x, Copied tree state x → isOpen x ∨
    (CutAt tree answers x → state.subtasksTruncated = true)

end Copied

/-! ## One more child -/

section Add

variable {tree : SourceTree} {answers : CopyAnswers} {target : RedmineClient.ProjectIdent}
  {newRoot : ℕ} {state : CopyState} {parent : Pending} {child : SourceIssue}
  {id : ℕ}

theorem copied_add {x : ℕ} :
    Copied tree (state.add target parent child id) x ↔
      Copied tree state x ∨ x = child.id := by
  simp [Copied, CopyState.add, or_assoc]

theorem CopyId.add {x copyId : ℕ} (hid : CopyId tree newRoot state x copyId) :
    CopyId tree newRoot (state.add target parent child id) x copyId := by
  rcases hid with hroot | ⟨copy, hcopy, hfacts⟩
  · exact Or.inl hroot
  · exact Or.inr ⟨copy, List.mem_append_left _ hcopy, hfacts⟩

theorem CopyId.copied {x copyId : ℕ}
    (hid : CopyId tree newRoot state x copyId) : Copied tree state x := by
  rcases hid with ⟨hroot, -⟩ | ⟨copy, hcopy, hsource, -⟩
  · exact Or.inl hroot
  · exact Or.inr (List.mem_map.mpr ⟨copy, hcopy, hsource⟩)

theorem FaithfulCopy.add {copy : Copy}
    (hcopy : FaithfulCopy tree answers target newRoot state copy) :
    FaithfulCopy tree answers target newRoot
      (state.add target parent child id) copy := by
  obtain ⟨found, hfound, newParent, hid, hcreate, hparent⟩ := hcopy.sent
  exact ⟨⟨found, hfound, newParent, hid, hcreate, hparent.add⟩,
    hcopy.contained, hcopy.uncut, hcopy.answered⟩

theorem SourceTree.child_ne_root {x : ℕ} (hchild : child ∈ tree.children x) :
    child.id ≠ tree.root := by
  intro heq
  have hdepth := tree.depth_eq x child hchild
  rw [heq, tree.depth_root] at hdepth
  omega

theorem SourceTree.child_ne_self {x : ℕ} (hchild : child ∈ tree.children x) :
    child.id ≠ x := by
  intro heq
  have hdepth := tree.depth_eq x child hchild
  rw [heq] at hdepth
  omega

/-- A child that was not copied before is neither queued nor a parent. -/
theorem not_copied_child
    (hchild : child ∈ tree.children parent.source)
    (hfresh : child.id ∉ state.created.map Copy.source) :
    ¬ Copied tree state child.id := by
  rintro (hroot | hcreated)
  · exact SourceTree.child_ne_root hchild hroot
  · exact hfresh hcreated

theorem Faithful.add
    (hstate : Faithful tree answers target newRoot (some parent.source) state)
    (hparent : FaithfulPending tree newRoot state parent)
    (huncut : ¬ CutAt tree answers parent.source)
    (hchild : child ∈ tree.children parent.source)
    (hfresh : child.id ∉ state.created.map Copy.source)
    (hcreate : answers.createIssue child.id = .ok id)
    (hroom : state.totalCreated < copyMaxTotal) :
    Faithful tree answers target newRoot (some parent.source)
      (state.add target parent child id) := by
  have hnotCopied := not_copied_child hchild hfresh
  have hparentOf := tree.parent_eq parent.source child hchild
  have hselfNe : parent.source ≠ child.id :=
    (SourceTree.child_ne_self hchild).symm
  have hqueue : ∀ x, x ∉ state.queue.map Pending.source → x ≠ child.id →
      x ∉ (state.add target parent child id).queue.map Pending.source := by
    intro x hx hne hmem
    rw [CopyState.add, List.map_append, List.mem_append] at hmem
    rcases hmem with hold | hnew
    · exact hx hold
    · exact hne (List.mem_singleton.mp hnew)
  constructor
  · rw [CopyState.add, hstate.total, List.length_append]
    rfl
  · exact hroom
  · rw [CopyState.add, hstate.count, List.length_append]
    rfl
  · rw [CopyState.add, List.map_append]
    exact List.nodup_append.mpr ⟨hstate.nodup, List.nodup_singleton _, by
      rintro x hx y hy rfl
      rw [List.mem_singleton.mp hy] at hx
      exact hfresh hx⟩
  · intro copy hcopy
    rcases List.mem_append.mp hcopy with hold | hnew
    · exact (hstate.created copy hold).add
    · rw [List.mem_singleton.mp hnew]
      refine ⟨⟨child, ?_, parent.newParent, rfl, rfl, ?_⟩, ?_, ?_, hcreate⟩
      · rw [hparentOf]
        exact hchild
      · rw [hparentOf]
        exact hparent.copy.add
      · rw [hparentOf]
        exact hparent.contained
      · rw [hparentOf]
        exact huncut
  · intro pending hpending
    rcases List.mem_append.mp hpending with hold | hnew
    · have hfacts := hstate.pending pending hold
      exact ⟨hfacts.contained, hfacts.depth, hfacts.copy.add⟩
    · rw [List.mem_singleton.mp hnew]
      refine ⟨.child hparent.contained hchild, ?_, Or.inr
        ⟨⟨child.id, id, childCreate target parent.newParent child⟩, ?_, rfl,
          rfl⟩⟩
      · rw [tree.depth_eq parent.source child hchild, ← hparent.depth]
      · exact List.mem_append_right _ (List.mem_singleton.mpr rfl)
  · rw [CopyState.add, List.map_append]
    refine List.nodup_append.mpr ⟨hstate.queued, List.nodup_singleton _, ?_⟩
    rintro x hx y hy rfl
    obtain ⟨pending, hpending, hsource⟩ := List.mem_map.mp hx
    have hcopied := (hstate.pending pending hpending).copy.copied
    rw [hsource, List.mem_singleton.mp hy] at hcopied
    exact hnotCopied hcopied
  · intro copy hcopy
    rcases List.mem_append.mp hcopy with hold | hnew
    · apply hqueue _ (hstate.closed copy hold)
      intro heq
      obtain ⟨-, -, newParent, -, -, hid⟩ := (hstate.created copy hold).sent
      rw [heq] at hid
      exact hnotCopied hid.copied
    · rw [List.mem_singleton.mp hnew, hparentOf]
      exact hqueue _ (hstate.away _ rfl) hselfNe
  · intro x hx
    cases hx
    exact hqueue _ (hstate.away _ rfl) hselfNe

theorem Faithful.truncate {working : Option ℕ}
    (hstate : Faithful tree answers target newRoot working state) :
    Faithful tree answers target newRoot working state.truncate := by
  refine ⟨hstate.total, hstate.bound, hstate.count, hstate.nodup, ?_, ?_,
    hstate.queued, hstate.closed, hstate.away⟩
  · intro copy hcopy
    have hfacts := hstate.created copy hcopy
    exact ⟨hfacts.sent, hfacts.contained, hfacts.uncut, hfacts.answered⟩
  · intro pending hpending
    have hfacts := hstate.pending pending hpending
    exact ⟨hfacts.contained, hfacts.depth, hfacts.copy⟩

theorem Faithful.leave {working : Option ℕ}
    (hstate : Faithful tree answers target newRoot working state) :
    Faithful tree answers target newRoot none state :=
  ⟨hstate.total, hstate.bound, hstate.count, hstate.nodup, hstate.created,
    hstate.pending, hstate.queued, hstate.closed, fun _ hx => by cases hx⟩

end Add

/-! ## The children of one issue -/

section Children

variable {tree : SourceTree} {answers : CopyAnswers} {target : RedmineClient.ProjectIdent}
  {newRoot : ℕ} {state : CopyState} {parent : Pending}
  {child : SourceIssue} {id : ℕ} {isOpen : ℕ → Prop}

def CopyState.queued (state : CopyState) (x : ℕ) : Prop :=
  x ∈ state.queue.map Pending.source

theorem Flagged.of_obstacle (hobstacle : Obstacle tree answers)
    (htruncated : state.subtasksTruncated = true) :
    Flagged tree answers isOpen state where
  closed := fun _ _ => Or.inr (Or.inl ⟨htruncated, hobstacle⟩)
  reason := fun _ => Or.inl hobstacle
  noted := fun _ _ => Or.inr fun _ => htruncated

theorem Flagged.add {working : ℕ}
    (hstate : Flagged tree answers
      (fun x => state.queued x ∨ x = working) state) :
    Flagged tree answers
      (fun x => (state.add target parent child id).queued x ∨ x = working)
      (state.add target parent child id) := by
  have hopen : ∀ x, state.queued x ∨ x = working →
      (state.add target parent child id).queued x ∨ x = working := by
    intro x hx
    refine hx.imp_left fun hqueued => ?_
    rw [CopyState.queued, CopyState.add, List.map_append]
    exact List.mem_append_left _ hqueued
  have hnew : (state.add target parent child id).queued child.id := by
    rw [CopyState.queued, CopyState.add, List.map_append]
    exact List.mem_append_right _ (List.mem_singleton.mpr rfl)
  constructor
  · intro x hx
    rcases copied_add.mp hx with hold | rfl
    · rcases hstate.closed x hold with hx | hcut | hall
      · exact Or.inl (hopen x hx)
      · exact Or.inr (Or.inl hcut)
      · exact Or.inr (Or.inr fun found hfound =>
          copied_add.mpr (Or.inl (hall found hfound)))
    · exact Or.inl (Or.inl hnew)
  · exact hstate.reason
  · intro x hx
    rcases copied_add.mp hx with hold | rfl
    · exact (hstate.noted x hold).imp_left (hopen x)
    · exact Or.inl (Or.inl hnew)

/-- Too many issues were created for one more. -/
theorem obstacle_of_full {working : Option ℕ}
    (hstate : Faithful tree answers target newRoot working state)
    (hparent : tree.Contains parent.source)
    (hchild : child ∈ tree.children parent.source)
    (hfresh : child.id ∉ state.created.map Copy.source)
    (hfull : copyMaxTotal ≤ state.totalCreated) :
    Obstacle tree answers := by
  refine Or.inr (Or.inr ⟨child.id :: state.created.map Copy.source,
    List.nodup_cons.mpr ⟨hfresh, hstate.nodup⟩, ?_, ?_⟩)
  · intro x hx
    rcases List.mem_cons.mp hx with rfl | hcreated
    · exact ⟨.child hparent hchild, SourceTree.child_ne_root hchild⟩
    · obtain ⟨copy, hcopy, rfl⟩ := List.mem_map.mp hcreated
      have hfacts := hstate.created copy hcopy
      obtain ⟨found, hfound, newParent, hid, -⟩ := hfacts.sent
      rw [← hid]
      exact ⟨.child hfacts.contained hfound, SourceTree.child_ne_root hfound⟩
  · rw [List.length_cons, List.length_map]
    exact hfull.trans_eq hstate.total

/-- The loop over the children of an issue, with some of them left. -/
structure Working (tree : SourceTree) (answers : CopyAnswers)
    (target : RedmineClient.ProjectIdent) (newRoot : ℕ) (parent : Pending)
    (children : List SourceIssue) (state : CopyState) : Prop where
  faithful : Faithful tree answers target newRoot (some parent.source) state
  origin : FaithfulPending tree newRoot state parent
  uncut : ¬ CutAt tree answers parent.source
  listed : ∀ child ∈ children, child ∈ tree.children parent.source
  nodup : (children.map SourceIssue.id).Nodup
  fresh : ∀ child ∈ children, child.id ∉ state.created.map Copy.source
  flagged : Flagged tree answers
    (fun x => state.queued x ∨ x = parent.source) state
  rest : ∀ child ∈ tree.children parent.source,
    child ∈ children ∨ Copied tree state child.id ∨
      (state.subtasksTruncated = true ∧ Obstacle tree answers)

namespace Working

variable {rest : List SourceIssue}

theorem add
    (hworking : Working tree answers target newRoot parent (child :: rest)
      state)
    (hcreate : answers.createIssue child.id = .ok id)
    (hroom : state.totalCreated < copyMaxTotal) :
    Working tree answers target newRoot parent rest
      (state.add target parent child id) where
  faithful := hworking.faithful.add hworking.origin hworking.uncut
    (hworking.listed child List.mem_cons_self)
    (hworking.fresh child List.mem_cons_self) hcreate hroom
  origin := ⟨hworking.origin.contained, hworking.origin.depth,
    hworking.origin.copy.add⟩
  uncut := hworking.uncut
  listed := fun other hother =>
    hworking.listed other (List.mem_cons_of_mem _ hother)
  nodup := (List.nodup_cons.mp hworking.nodup).2
  fresh := by
    intro other hother hmem
    rw [CopyState.add, List.map_append, List.mem_append] at hmem
    rcases hmem with hold | hnew
    · exact hworking.fresh other (List.mem_cons_of_mem _ hother) hold
    · have hsame : other.id = child.id := List.mem_singleton.mp hnew
      have hnodup : child.id ∉ rest.map SourceIssue.id :=
        (List.nodup_cons.mp hworking.nodup).1
      exact hnodup (hsame ▸ List.mem_map_of_mem hother)
  flagged := hworking.flagged.add
  rest := by
    intro other hother
    rcases hworking.rest other hother with hleft | hcopied | hcut
    · rcases List.mem_cons.mp hleft with rfl | hrest
      · exact Or.inr (Or.inl (copied_add.mpr (Or.inr rfl)))
      · exact Or.inl hrest
    · exact Or.inr (Or.inl (copied_add.mpr (Or.inl hcopied)))
    · exact Or.inr (Or.inr hcut)

theorem obstacle
    (hworking : Working tree answers target newRoot parent (child :: rest)
      state)
    (hmissed : copyMaxTotal ≤ state.totalCreated ∨
      ∃ e, answers.createIssue child.id = .error e) :
    Obstacle tree answers := by
  have hchild := hworking.listed child List.mem_cons_self
  rcases hmissed with hfull | hfailed
  · exact obstacle_of_full hworking.faithful hworking.origin.contained hchild
      (hworking.fresh child List.mem_cons_self) hfull
  · exact Or.inr (Or.inl ⟨child.id,
      ⟨.child hworking.origin.contained hchild,
        SourceTree.child_ne_root hchild⟩, hfailed⟩)

theorem skip
    (hworking : Working tree answers target newRoot parent (child :: rest)
      state)
    (hobstacle : Obstacle tree answers) :
    Working tree answers target newRoot parent rest state.truncate where
  faithful := hworking.faithful.truncate
  origin := ⟨hworking.origin.contained, hworking.origin.depth,
    hworking.origin.copy⟩
  uncut := hworking.uncut
  listed := fun other hother =>
    hworking.listed other (List.mem_cons_of_mem _ hother)
  nodup := (List.nodup_cons.mp hworking.nodup).2
  fresh := fun other hother =>
    hworking.fresh other (List.mem_cons_of_mem _ hother)
  flagged := Flagged.of_obstacle hobstacle rfl
  rest := fun _ _ => Or.inr (Or.inr ⟨rfl, hobstacle⟩)

theorem done
    (hworking : Working tree answers target newRoot parent [] state) :
    Flagged tree answers state.queued state where
  closed := by
    intro x hx
    rcases hworking.flagged.closed x hx with (hqueued | rfl) | hcut | hall
    · exact Or.inl hqueued
    · right
      by_cases hcut : state.subtasksTruncated = true ∧ Obstacle tree answers
      · exact Or.inl hcut
      · right
        intro child hchild
        rcases hworking.rest child hchild with hleft | hcopied | hcut'
        · cases hleft
        · exact hcopied
        · exact absurd hcut' hcut
    · exact Or.inr (Or.inl hcut)
    · exact Or.inr (Or.inr hall)
  reason := hworking.flagged.reason
  noted := by
    intro x hx
    rcases hworking.flagged.noted x hx with (hqueued | rfl) | hnoted
    · exact Or.inl hqueued
    · exact Or.inr fun hcut => absurd hcut hworking.uncut
    · exact Or.inr hnoted

end Working

/-- Iterations that may still come: two for every issue that may be created,
one of which is spent on creating it, and one for every issue in the queue. -/
def CopyState.budget (state : CopyState) : ℕ :=
  2 * (copyMaxTotal - state.totalCreated) + state.queue.length

/-- The ways in which the loop over the children of an issue ends. -/
theorem copyChildren_spec
    {children : List SourceIssue}
    (hworking : Working tree answers target newRoot parent children state) :
    ∃ final, Faithful tree answers target newRoot none final ∧
      final.budget ≤ state.budget ∧
      ((copyChildren answers target parent children state = (final, false) ∧
          Flagged tree answers final.queued final) ∨
        (copyChildren answers target parent children state = (final, true) ∧
          Flagged tree answers (fun _ => False) final)) := by
  induction children generalizing state with
  | nil => exact ⟨state, hworking.faithful.leave, le_rfl, Or.inl ⟨rfl, hworking.done⟩⟩
  | cons child rest ih =>
      unfold copyChildren
      by_cases hfull : copyMaxTotal ≤ state.totalCreated
      · rw [if_pos hfull]
        have hobstacle := hworking.obstacle (Or.inl hfull)
        exact ⟨state.truncate, (hworking.skip hobstacle).faithful.leave, le_rfl,
          Or.inr ⟨rfl, Flagged.of_obstacle hobstacle rfl⟩⟩
      · rw [if_neg hfull]
        cases hcreate : answers.createIssue child.id with
        | ok id =>
            have hadded := hworking.add hcreate (not_le.mp hfull)
            obtain ⟨final, hfinal, hbudget, hends⟩ := ih hadded
            refine ⟨final, hfinal, hbudget.trans ?_, hends⟩
            rw [CopyState.budget, CopyState.budget, CopyState.add,
              List.length_append, List.length_singleton]
            simp only
            omega
        | error e =>
            have hobstacle := hworking.obstacle (Or.inr ⟨e, hcreate⟩)
            obtain ⟨final, hfinal, hbudget, hends⟩ :=
              ih (hworking.skip hobstacle)
            exact ⟨final, hfinal, hbudget, hends⟩

end Children

/-! ## The whole queue -/

section Queue

variable {tree : SourceTree} {answers : CopyAnswers} {target : RedmineClient.ProjectIdent}
  {newRoot : ℕ} {state : CopyState} {parent : Pending} {queue : List Pending}

theorem Faithful.pop
    (hstate : Faithful tree answers target newRoot none state)
    (hqueue : state.queue = parent :: queue) :
    Faithful tree answers target newRoot (some parent.source)
      { state with queue := queue } := by
  have hqueued := hstate.queued
  rw [hqueue, List.map_cons] at hqueued
  refine ⟨hstate.total, hstate.bound, hstate.count, hstate.nodup, ?_, ?_,
    (List.nodup_cons.mp hqueued).2, ?_, ?_⟩
  · intro copy hcopy
    have hfacts := hstate.created copy hcopy
    exact ⟨hfacts.sent, hfacts.contained, hfacts.uncut, hfacts.answered⟩
  · intro pending hpending
    have hfacts := hstate.pending pending
      (hqueue ▸ List.mem_cons_of_mem _ hpending)
    exact ⟨hfacts.contained, hfacts.depth, hfacts.copy⟩
  · intro copy hcopy hmem
    have hclosed := hstate.closed copy hcopy
    rw [hqueue, List.map_cons] at hclosed
    exact hclosed (List.mem_cons_of_mem _ hmem)
  · intro x hx
    cases hx
    exact (List.nodup_cons.mp hqueued).1

theorem Flagged.pop
    (hstate : Flagged tree answers state.queued state)
    (hqueue : state.queue = parent :: queue) :
    Flagged tree answers
      (fun x => CopyState.queued { state with queue := queue } x ∨
        x = parent.source)
      { state with queue := queue } := by
  have hopen : ∀ x, state.queued x →
      CopyState.queued { state with queue := queue } x ∨
        x = parent.source := by
    intro x hx
    rw [CopyState.queued, hqueue, List.map_cons] at hx
    exact (List.mem_cons.mp hx).symm
  exact ⟨fun x hx => (hstate.closed x hx).imp_left (hopen x), hstate.reason,
    fun x hx => (hstate.noted x hx).imp_left (hopen x)⟩

theorem Working.start
    (hstate : Faithful tree answers target newRoot none state)
    (hflagged : Flagged tree answers state.queued state)
    (hqueue : state.queue = parent :: queue)
    (huncut : ¬ CutAt tree answers parent.source) :
    Working tree answers target newRoot parent
      (tree.children parent.source) { state with queue := queue } where
  faithful := hstate.pop hqueue
  origin := by
    have hfacts := hstate.pending parent (hqueue ▸ List.mem_cons_self)
    exact ⟨hfacts.contained, hfacts.depth, hfacts.copy⟩
  uncut := huncut
  listed := fun _ hchild => hchild
  nodup := tree.nodup parent.source
  fresh := by
    intro child hchild hmem
    obtain ⟨copy, hcopy, hsource⟩ := List.mem_map.mp hmem
    have hclosed := hstate.closed copy hcopy
    rw [hsource, tree.parent_eq parent.source child hchild, hqueue] at hclosed
    exact hclosed List.mem_cons_self
  flagged := hflagged.pop hqueue
  rest := fun _ hchild => Or.inl hchild

/-- An issue that is cut off is noted as truncated and leaves the queue. -/
theorem flagged_of_cut
    (hstate : Faithful tree answers target newRoot none state)
    (hflagged : Flagged tree answers state.queued state)
    (hqueue : state.queue = parent :: queue)
    (hcut : CutAt tree answers parent.source) :
    Flagged tree answers
      (CopyState.truncate { state with queue := queue }).queued
      (CopyState.truncate { state with queue := queue }) := by
  have hcontained :=
    (hstate.pending parent (hqueue ▸ List.mem_cons_self)).contained
  by_cases hleaf : tree.children parent.source = []
  · refine ⟨?_, fun _ => Or.inr ⟨parent.source, hcontained, hleaf, hcut⟩,
      fun _ _ => Or.inr fun _ => rfl⟩
    intro x hx
    rcases (hflagged.pop hqueue).closed x hx with (hqueued | rfl) | hobstacle | hall
    · exact Or.inl hqueued
    · right
      right
      intro child hchild
      rw [hleaf] at hchild
      cases hchild
    · exact Or.inr (Or.inl ⟨rfl, hobstacle.2⟩)
    · exact Or.inr (Or.inr hall)
  · exact Flagged.of_obstacle
      (Or.inl ⟨parent.source, hcontained, hleaf, hcut⟩) rfl

/-- Everything that one iteration can do. -/
theorem copyBody_spec
    (hlists : answers.ListsChildren tree)
    (hstate : Faithful tree answers target newRoot none state)
    (hflagged : Flagged tree answers state.queued state) :
    (∃ final, copyBody answers target state = .inl final ∧
        Faithful tree answers target newRoot none final ∧
        Flagged tree answers (fun _ => False) final) ∨
      ∃ next, copyBody answers target state = .inr next ∧
        Faithful tree answers target newRoot none next ∧
        Flagged tree answers next.queued next ∧
        next.budget < state.budget := by
  unfold copyBody
  cases hqueue : state.queue with
  | nil =>
      refine Or.inl ⟨state, rfl, hstate, ?_⟩
      have hnone : ∀ x, ¬ state.queued x := by
        intro x hx
        rw [CopyState.queued, hqueue] at hx
        cases hx
      exact ⟨fun x hx => (hflagged.closed x hx).imp_left (hnone x),
        hflagged.reason, fun x hx => (hflagged.noted x hx).imp_left (hnone x)⟩
  | cons parent queue =>
      have hdepth :=
        (hstate.pending parent (hqueue ▸ List.mem_cons_self)).depth
      have hbudget : CopyState.budget { state with queue := queue } <
          state.budget := by
        rw [CopyState.budget, CopyState.budget, hqueue, List.length_cons]
        exact Nat.lt_succ_self _
      simp only
      by_cases hdeep : copyMaxDepth ≤ parent.depth
      · rw [if_pos hdeep]
        refine Or.inr ⟨_, rfl, (hstate.pop hqueue).truncate.leave, ?_, hbudget⟩
        exact flagged_of_cut hstate hflagged hqueue (Or.inl (hdepth ▸ hdeep))
      · rw [if_neg hdeep]
        cases hlist : answers.listSubtasks parent.source with
        | error e =>
            refine Or.inr ⟨_, rfl, (hstate.pop hqueue).truncate.leave, ?_,
              hbudget⟩
            exact flagged_of_cut hstate hflagged hqueue (Or.inr ⟨e, hlist⟩)
        | ok children =>
            rw [hlists _ _ hlist]
            have huncut : ¬ CutAt tree answers parent.source := by
              rintro (hcut | ⟨e, hcut⟩)
              · exact hdeep (hdepth ▸ hcut)
              · rw [hlist] at hcut
                cases hcut
            obtain ⟨final, hfinal, hspent, ⟨heq, hopen⟩ | ⟨heq, hclosed⟩⟩ :=
              copyChildren_spec
                (Working.start hstate hflagged hqueue huncut)
            · refine Or.inr ⟨final, ?_, hfinal, hopen,
                lt_of_le_of_lt hspent hbudget⟩
              simp only [heq]
            · refine Or.inl ⟨final, ?_, hfinal, hclosed⟩
              simp only [heq]

theorem faithful_start (tree : SourceTree) (answers : CopyAnswers)
    (target : RedmineClient.ProjectIdent) (newRoot : ℕ) :
    Faithful tree answers target newRoot none
      (CopyState.start tree.root newRoot) where
  total := rfl
  bound := by
    change 1 ≤ copyMaxTotal
    decide
  count := rfl
  nodup := List.nodup_nil
  created := fun _ hcopy => by cases hcopy
  pending := by
    intro pending hpending
    rw [List.mem_singleton.mp hpending]
    exact ⟨.root, tree.depth_root.symm, Or.inl ⟨rfl, rfl⟩⟩
  queued := List.nodup_singleton _
  closed := fun _ hcopy => by cases hcopy
  away := fun _ hx => by cases hx

theorem flagged_start (tree : SourceTree) (answers : CopyAnswers)
    (newRoot : ℕ) :
    Flagged tree answers (CopyState.start tree.root newRoot).queued
      (CopyState.start tree.root newRoot) := by
  have hopen : ∀ x, Copied tree (CopyState.start tree.root newRoot) x →
      (CopyState.start tree.root newRoot).queued x := by
    rintro x (rfl | hcreated)
    · exact List.mem_cons_self
    · cases hcreated
  refine ⟨fun x hx => Or.inl (hopen x hx), ?_, fun x hx => Or.inl (hopen x hx)⟩
  intro htruncated
  cases htruncated

/-- The copy comes to an end, with every issue dealt with. -/
theorem copySubtasks_spec
    (hlists : answers.ListsChildren tree) (target : RedmineClient.ProjectIdent)
    (newRoot : ℕ) :
    ∃ final, copySubtasks answers target tree.root newRoot = some final ∧
      Faithful tree answers target newRoot none final ∧
      Flagged tree answers (fun _ => False) final := by
  apply Loop.run_of_invariant
    (fun state => Faithful tree answers target newRoot none state ∧
      Flagged tree answers state.queued state) CopyState.budget
  · rintro state final ⟨hstate, hflagged⟩ hbody
    obtain ⟨final', heq, hfinal⟩ | ⟨next, heq, -⟩ :=
      copyBody_spec hlists hstate hflagged
    · rw [hbody] at heq
      cases heq
      exact hfinal
    · rw [hbody] at heq
      cases heq
  · rintro state next ⟨hstate, hflagged⟩ hbody
    obtain ⟨final, heq, -⟩ | ⟨next', heq, hnext, hopen, hbudget⟩ :=
      copyBody_spec hlists hstate hflagged
    · rw [hbody] at heq
      cases heq
    · rw [hbody] at heq
      cases heq
      exact ⟨⟨hnext, hopen⟩, hbudget⟩
  · exact ⟨faithful_start tree answers target newRoot,
      flagged_start tree answers newRoot⟩
  · change 2 * (copyMaxTotal - 1) + 1 < 2 * copyMaxTotal
    decide

end Queue

/-! ## What the report says -/

section Report

variable {tree : SourceTree} {answers : CopyAnswers} {target : RedmineClient.ProjectIdent}
  {newRoot : ℕ} {state : CopyState}

theorem all_copied_of_closed
    (hclosed : ∀ x, Copied tree state x →
      ∀ child ∈ tree.children x, Copied tree state child.id) :
    ∀ x, tree.Contains x → Copied tree state x := by
  intro x hx
  induction hx with
  | root => exact Or.inl rfl
  | child _ hchild ih => exact hclosed _ ih _ hchild

/-- With an obstacle, something is missing. -/
theorem exists_missing_of_obstacle
    (hstate : Faithful tree answers target newRoot none state)
    (hobstacle : Obstacle tree answers) :
    ∃ x, tree.Descendant x ∧ x ∉ state.created.map Copy.source := by
  rcases hobstacle with ⟨x, hx, hchildren, hcut⟩ | ⟨x, hx, e, hfailed⟩ |
    ⟨descendants, hnodup, hall, hmany⟩
  · obtain ⟨child, rest, hchildren⟩ := List.exists_cons_of_ne_nil hchildren
    have hchild : child ∈ tree.children x := hchildren ▸ List.mem_cons_self
    refine ⟨child.id, ⟨.child hx hchild, SourceTree.child_ne_root hchild⟩, ?_⟩
    intro hmem
    obtain ⟨copy, hcopy, hsource⟩ := List.mem_map.mp hmem
    have huncut := (hstate.created copy hcopy).uncut
    rw [hsource, tree.parent_eq x child hchild] at huncut
    exact huncut hcut
  · refine ⟨x, hx, ?_⟩
    intro hmem
    obtain ⟨copy, hcopy, rfl⟩ := List.mem_map.mp hmem
    have hanswered := (hstate.created copy hcopy).answered
    rw [hfailed] at hanswered
    cases hanswered
  · by_contra hnone
    have hsubset : descendants ⊆ state.created.map Copy.source := by
      intro x hx
      by_contra hmissing
      exact hnone ⟨x, hall x hx, hmissing⟩
    have hlength := (List.subperm_of_subset hnodup hsubset).length_le
    rw [List.length_map] at hlength
    have htotal := hstate.total
    have hbound := hstate.bound
    omega

theorem missing_iff
    (hstate : Faithful tree answers target newRoot none state)
    (hflagged : Flagged tree answers (fun _ => False) state) :
    ((state.subtasksTruncated = true ↔
        ∃ x, tree.Descendant x ∧ x ∉ state.created.map Copy.source) ↔
      Obstacle tree answers ∨ ¬ CutLeaf tree answers) := by
  have hall : ¬ (state.subtasksTruncated = true ∧ Obstacle tree answers) →
      ∀ x, tree.Contains x → Copied tree state x := by
    intro hno
    apply all_copied_of_closed
    intro x hx
    rcases hflagged.closed x hx with hopen | hcut | hchildren
    · exact absurd hopen id
    · exact absurd hcut hno
    · exact hchildren
  have hnoted : ¬ Obstacle tree answers → CutLeaf tree answers →
      state.subtasksTruncated = true := by
    rintro hno ⟨x, hx, -, hcut⟩
    have hcopied := hall (fun h => hno h.2) x hx
    exact (hflagged.noted x hcopied).resolve_left id hcut
  constructor
  · intro hiff
    by_contra hneither
    rw [not_or, not_not] at hneither
    obtain ⟨x, hx, hmissing⟩ :=
      hiff.mp (hnoted hneither.1 hneither.2)
    rcases hall (fun h => hneither.1 h.2) x hx.1 with hroot | hcreated
    · exact hx.2 hroot
    · exact hmissing hcreated
  · intro hcondition
    constructor
    · intro htruncated
      apply exists_missing_of_obstacle hstate
      rcases hcondition with hobstacle | hleaf
      · exact hobstacle
      · exact (hflagged.reason htruncated).resolve_right hleaf
    · rintro ⟨x, hx, hmissing⟩
      by_contra hsilent
      rcases hall (fun h => hsilent h.1) x hx.1 with hroot | hcreated
      · exact hx.2 hroot
      · exact hmissing hcreated

end Report

/-- The fields that are sent for a copy are those of its source issue. -/
structure TakesFields (source : SourceIssue) (create : IssueCreate) : Prop where
  subject : create.subject = source.subject
  trackerId : create.trackerId = some source.trackerId
  priorityId : create.priorityId = some source.priorityId
  categoryId : create.categoryId = source.categoryId
  fixedVersionId : create.fixedVersionId = source.fixedVersionId
  description : create.description = source.description
  assignedToId : create.assignedToId = source.assignedToId
  startDate : create.startDate = source.startDate
  dueDate : create.dueDate = source.dueDate
  doneRatio : create.doneRatio = source.doneRatio
  estimatedHours : create.estimatedHours = source.estimatedHours
  isPrivate : create.isPrivate = source.isPrivate

/-- The copy is within the limit, takes no issue twice, sends the fields of the
source issue to the project of the copied root, hangs each under the copy of
its parent, is counted, and is truncated exactly when something is missing. -/
structure CopiesFaithfully (tree : SourceTree) (output : CopyIssueOutput) :
    Prop where
  total : output.created.length + 1 ≤ 50
  once : (output.created.map Copy.source).Nodup
  descendants : ∀ copy ∈ output.created, tree.Descendant copy.source
  fields : ∀ copy ∈ output.created,
    ∃ source ∈ tree.children (tree.parent copy.source),
      source.id = copy.source ∧ TakesFields source copy.create ∧
        copy.create.projectId = output.issue.create.projectId
  parents : ∀ copy ∈ output.created, ∃ newParent,
    copy.create.parentIssueId = some newParent ∧
      ((tree.parent copy.source = tree.root ∧
          newParent = output.issue.id) ∨
        ∃ other ∈ output.created,
          other.source = tree.parent copy.source ∧ other.id = newParent)
  count : output.subtasksCopied = output.created.length
  truncated : output.subtasksTruncated = true ↔
    ∃ x, tree.Descendant x ∧ x ∉ output.created.map Copy.source

theorem copiesFaithfully_iff
    {tree : SourceTree} {answers : CopyAnswers} {target : RedmineClient.ProjectIdent}
    {newRoot : ℕ} {state : CopyState} {output : CopyIssueOutput}
    (hstate : Faithful tree answers target newRoot none state)
    (hflagged : Flagged tree answers (fun _ => False) state)
    (hcreated : output.created = state.created)
    (hissue : output.issue.id = newRoot)
    (htarget : output.issue.create.projectId = target)
    (hcount : output.subtasksCopied = state.subtasksCopied)
    (htruncated : output.subtasksTruncated = state.subtasksTruncated) :
    CopiesFaithfully tree output ↔
      Obstacle tree answers ∨ ¬ CutLeaf tree answers := by
  rw [← missing_iff hstate hflagged, ← hcreated, ← htruncated]
  refine ⟨fun hfaithful => hfaithful.truncated, fun hiff => ?_⟩
  refine ⟨?_, ?_, ?_, ?_, ?_, ?_, hiff⟩
  · rw [hcreated, ← hstate.total]
    exact hstate.bound
  · rw [hcreated]
    exact hstate.nodup
  · intro copy hcopy
    have hfacts := hstate.created copy (hcreated ▸ hcopy)
    obtain ⟨child, hchild, -, hid, -⟩ := hfacts.sent
    rw [← hid]
    exact ⟨.child hfacts.contained hchild, SourceTree.child_ne_root hchild⟩
  · intro copy hcopy
    obtain ⟨child, hchild, newParent, hid, hcreate, -⟩ :=
      (hstate.created copy (hcreated ▸ hcopy)).sent
    rw [hcreate, htarget]
    exact ⟨child, hchild, hid,
      ⟨rfl, rfl, rfl, rfl, rfl, rfl, rfl, rfl, rfl, rfl, rfl, rfl⟩, rfl⟩
  · intro copy hcopy
    obtain ⟨child, -, newParent, -, hcreate, hparent⟩ :=
      (hstate.created copy (hcreated ▸ hcopy)).sent
    refine ⟨newParent, by rw [hcreate]; rfl, ?_⟩
    rw [hissue, hcreated]
    exact hparent
  · rw [hcount, hcreated]
    exact hstate.count

/-- A call whose root is copied ends, and its report is faithful exactly when
the copy cannot be complete or no issue without children is cut off. -/
theorem copyIssue_faithful_iff
    (env : WriteEnv) (displayStatus : ℕ → String) (answers : CopyAnswers)
    (params : CopyIssueParams) (tree : SourceTree)
    (hlists : answers.ListsChildren tree)
    (hroot : tree.root = params.issueId)
    (hsubtasks : params.copySubtasks = true)
    (hsucceeds : ∀ refusal,
      copyIssue env displayStatus answers params ≠ some (.error refusal)) :
    ∃ output,
      copyIssue env displayStatus answers params = some (.ok output) ∧
      (CopiesFaithfully tree output ↔
        Obstacle tree answers ∨ ¬ CutLeaf tree answers) := by
  unfold copyIssue at hsucceeds ⊢
  cases hsource : answers.getIssue with
  | error e =>
      rw [hsource] at hsucceeds
      exact absurd rfl (hsucceeds _)
  | ok source =>
      simp only [hsource] at hsucceeds ⊢
      cases htarget : copyTarget env params source with
      | error refusal =>
          rw [htarget] at hsucceeds
          exact absurd rfl (hsucceeds _)
      | ok target =>
          simp only [htarget] at hsucceeds ⊢
          cases hcreate : answers.createIssue params.issueId with
          | error e =>
              rw [hcreate] at hsucceeds
              exact absurd rfl (hsucceeds _)
          | ok newRoot =>
              obtain ⟨final, hfinal, hstate, hflagged⟩ :=
                copySubtasks_spec hlists target newRoot
              rw [hroot] at hfinal
              simp only [hsubtasks, if_true, hfinal, Option.map_some]
              exact ⟨_, rfl,
                copiesFaithfully_iff hstate hflagged rfl rfl rfl rfl rfl⟩

namespace Sample

def sourceIssue (id : ℕ) : SourceIssue :=
  ⟨id, 1, "subject", 1, 2, none, none, none, none, none, none, none, none,
    none⟩

/-- A root with a chain of subtasks below it, the given number of them. -/
def chain (length : ℕ) : SourceTree where
  root := 0
  children := fun x => if x < length then [sourceIssue (x + 1)] else []
  parent := fun x => x - 1
  depth := fun x => x
  depth_root := rfl
  parent_eq := by
    intro x child hchild
    split at hchild
    · rw [List.mem_singleton.mp hchild]
      rfl
    · cases hchild
  depth_eq := by
    intro x child hchild
    split at hchild
    · rw [List.mem_singleton.mp hchild]
      rfl
    · cases hchild
  nodup := by
    intro x
    split
    · exact List.nodup_singleton _
    · exact List.nodup_nil

/-- Every request succeeds. -/
def chainAnswers (length : ℕ) : CopyAnswers where
  getIssue := .ok (sourceIssue 0)
  listSubtasks := fun x => .ok ((chain length).children x)
  createIssue := fun x => .ok (100 + x)

def copyEnv : WriteEnv where
  agile := false
  tags := false
  normalizeFieldName := id
  debugString := id
  debugChar := Char.toString
  definitions := .ok []
  mintUploads _ := .ok []

def copyParams : CopyIssueParams :=
  ⟨0, none, none, true, true, none, none, none, none, none, none⟩

theorem chain_listsChildren (length : ℕ) :
    (chainAnswers length).ListsChildren (chain length) := by
  intro x children hlist
  cases hlist
  rfl

theorem chain_contains {length x : ℕ} (hx : (chain length).Contains x) :
    x ≤ length := by
  induction hx with
  | root => exact Nat.zero_le _
  | child _ hchild _ =>
      simp only [chain] at hchild
      split at hchild
      next hlt =>
        rw [List.mem_singleton.mp hchild]
        exact hlt
      next => cases hchild

/-- Five levels of subtasks are copied to the last one, and are reported as
truncated. -/
theorem full_copy_reported_truncated :
    (chainAnswers 5).ListsChildren (chain 5) ∧ ∃ output,
      copyIssue copyEnv toString (chainAnswers 5) copyParams =
          some (.ok output) ∧
        output.created.map Copy.source = [1, 2, 3, 4, 5] ∧
        ¬ CopiesFaithfully (chain 5) output := by
  refine ⟨chain_listsChildren 5, _, rfl, by decide, ?_⟩
  intro hfaithful
  obtain ⟨x, ⟨hcontained, hroot⟩, hmissing⟩ :=
    hfaithful.truncated.mp (by decide)
  have hbound := chain_contains hcontained
  have hcreated : ∀ y, y ≤ 5 → y ≠ 0 → y ∈ [1, 2, 3, 4, 5] := by decide
  exact hmissing (hcreated x hbound hroot)

theorem chain_not_refused (length : ℕ) (refusal : Refusal) :
    copyIssue copyEnv toString (chainAnswers length) copyParams ≠
      some (.error refusal) := by
  simp [copyIssue, chainAnswers, copyParams, copyTarget]

/-- Three levels end above the limit. -/
theorem short_chain_copied_faithfully :
    ∃ output,
      copyIssue copyEnv toString (chainAnswers 3) copyParams =
          some (.ok output) ∧
        CopiesFaithfully (chain 3) output := by
  obtain ⟨output, hok, hiff⟩ := copyIssue_faithful_iff copyEnv toString
    (chainAnswers 3) copyParams (chain 3) (chain_listsChildren 3) rfl rfl
    (chain_not_refused 3)
  refine ⟨output, hok, hiff.mpr (Or.inr ?_)⟩
  rintro ⟨x, hx, -, hdeep | ⟨e, hfailed⟩⟩
  · have hbound := chain_contains hx
    exact absurd (le_trans hdeep hbound) (by decide)
  · cases hfailed

end Sample

end RuprogressMcp
