import ExprHeap.Heap.Collection
import ExprHeap.Proofs.Twins
import Mathlib.Data.List.Forall2

/-!
# Dialogues with a store

A dialogue asks a store one thing after the other and keeps the handles and the cycles that have
been answered, so that later steps can name them by their places (`StoreStep`, `Dialogue.take`).
Two dialogues take the same steps when each asks with the handles that its own store has given, and
judges liveness alike for handles that the same step has given (`Dialogue.Alike`).

Dialogues with twin stores answer alike: the same nodes in the same slots, but for the generations
of the handles and the numbers of the cycles (`Dialogue.Twins.unagedAnswers_eq`).

## Strategy

Beside the twin arenas, twin dialogues remember two things.  Every node that is there has been given
a handle, so the judgements of liveness are only asked where they agree.  And whatever stands beyond
the high water mark of an earlier cycle of the new store has been born in that cycle or later, so
the sweep of the store that has been in use, which may have more slots to go over, takes nothing
else (`Arena.YoungBeyond`).  Both follow from what a step adds to an arena (`Arena.Continues`):
whatever is there afterwards was there before, or has been given its handle just now.

There is one lemma for each step, which says that the answers to it agree (`Dialogue.Agree`).
-/

namespace ExprHeap

/-! ### Steps and answers -/

/-- What a store can be asked.  A handle is named by its place among the handles answered so far,
and so is a cycle. -/
inductive StoreStep where
  | allocate (op : Op) (children : List Nat) (width : UInt32)
  | release (handle : Nat)
  | shade (handle : Nat)
  | node (handle : Nat)
  | childrenOf (handle : Nat)
  | beginCycle
  /-- Sweeps all slots below the high water mark of a cycle, in batches. -/
  | sweep (cycle batch : Nat) (isLive : Handle → Bool)
  | endCycle

/-- What a store answers. -/
inductive StoreReply where
  | allocated (allocation : Allocation)
  | released (node : Node)
  | named (node : Node)
  | children (handles : List Handle)
  | begun (cycle : Cycle)
  | swept (freed : List Handle)
  | done
  | failed (error : HeapError)
  /-- What the step names has not been answered. -/
  | unanswered

namespace StoreReply

/-- The handles in an answer. -/
def handles : StoreReply → List Handle
  | .allocated allocation => [allocation.handle]
  | .released node => node.children
  | .named node => node.children
  | .children handles => handles
  | .swept freed => freed
  | _ => []

/-- The cycle in an answer. -/
def cycles : StoreReply → List Cycle
  | .begun cycle => [cycle]
  | _ => []

/-- An answer without the generations of its handles and without the numbers of its cycle. -/
def unaged : StoreReply → StoreReply
  | .allocated allocation => .allocated allocation.unaged
  | .released node => .released node.unaged
  | .named node => .named node.unaged
  | .children handles => .children (handles.map Handle.unaged)
  | .begun _ => .begun ⟨0, 0⟩
  | .swept freed => .swept (freed.map Handle.unaged)
  | .done => .done
  | .failed error => .failed error.unaged
  | .unanswered => .unanswered

end StoreReply

/-- A store, with the handles and the cycles that it has answered so far. -/
structure Dialogue where
  store : Store
  handles : List Handle
  cycles : List Cycle

namespace Dialogue

/-- Nothing has been asked yet. -/
def start (store : Store) : Dialogue := ⟨store, [], []⟩

/-- The answer to a question about the handle in this place. -/
def about (dialogue : Dialogue) (handle : Nat)
    (ask : Handle → Except HeapError (StoreReply × Store)) : StoreReply × Store :=
  match dialogue.handles[handle]? with
  | none => (.unanswered, dialogue.store)
  | some handle =>
    match ask handle with
    | .ok answer => answer
    | .error error => (.failed error, dialogue.store)

/-- The answer to a step and the store after it. -/
def answer (dialogue : Dialogue) : StoreStep → StoreReply × Store
  | .allocate op children width =>
    match children.mapM (dialogue.handles[·]?) with
    | none => (.unanswered, dialogue.store)
    | some children =>
      match dialogue.store.allocate ⟨op, children, width⟩ with
      | .ok (allocation, store) => (.allocated allocation, store)
      | .error error => (.failed error, dialogue.store)
  | .release handle => dialogue.about handle fun handle =>
    (dialogue.store.release handle).map fun (node, store) => (.released node, store)
  | .shade handle => dialogue.about handle fun handle =>
    (dialogue.store.shade handle).map fun store => (.done, store)
  | .node handle => dialogue.about handle fun handle =>
    (dialogue.store.node handle).map fun node => (.named node, dialogue.store)
  | .childrenOf handle => dialogue.about handle fun handle =>
    (dialogue.store.childrenOf handle).map fun children => (.children children, dialogue.store)
  | .beginCycle =>
    let arena := dialogue.store.arena.beginCycle
    (.begun ⟨arena.epoch, arena.table.size⟩, { dialogue.store with arena := arena })
  | .sweep cycle batch isLive =>
    match dialogue.cycles[cycle]? with
    | none => (.unanswered, dialogue.store)
    | some cycle =>
      let (freed, store) := dialogue.store.sweep batch cycle.epoch isLive 0 cycle.highWater
      (.swept freed.toList, store)
  | .endCycle => (.done, { dialogue.store with arena := dialogue.store.arena.endCycle })

/-- The answer to a step, and the dialogue with what it adds. -/
def take (dialogue : Dialogue) (step : StoreStep) : StoreReply × Dialogue :=
  let (reply, store) := dialogue.answer step
  (reply, ⟨store, dialogue.handles ++ reply.handles, dialogue.cycles ++ reply.cycles⟩)

/-- The answers to steps taken one after the other, without generations and numbers of cycles, and
each with the size of the store after it. -/
def unagedAnswers (dialogue : Dialogue) : List StoreStep → List (StoreReply × Nat)
  | [] => []
  | step :: rest =>
    let (reply, next) := dialogue.take step
    (reply.unaged, next.store.size) :: next.unagedAnswers rest

end Dialogue

/-! ### The same steps -/

/-- The same step of two dialogues.  Liveness is judged alike for handles that the same step has
given, as far as they have been answered by now. -/
inductive StoreStep.Alike (first second : List Handle) : StoreStep → StoreStep → Prop
  | allocate (op : Op) (children : List Nat) (width : UInt32) :
      Alike first second (.allocate op children width) (.allocate op children width)
  | release (handle : Nat) : Alike first second (.release handle) (.release handle)
  | shade (handle : Nat) : Alike first second (.shade handle) (.shade handle)
  | node (handle : Nat) : Alike first second (.node handle) (.node handle)
  | childrenOf (handle : Nat) : Alike first second (.childrenOf handle) (.childrenOf handle)
  | beginCycle : Alike first second .beginCycle .beginCycle
  | sweep (cycle batch : Nat) {isLive other : Handle → Bool}
      (hlive : ∀ (position : Nat) (one corresponding : Handle), first[position]? = some one →
        second[position]? = some corresponding → isLive one = other corresponding) :
      Alike first second (.sweep cycle batch isLive) (.sweep cycle batch other)
  | endCycle : Alike first second .endCycle .endCycle

/-- The same steps of two dialogues, one after the other. -/
inductive Dialogue.Alike : Dialogue → Dialogue → List StoreStep → List StoreStep → Prop
  | nil {first second : Dialogue} : Alike first second [] []
  | cons {first second : Dialogue} {step other : StoreStep} {rest others : List StoreStep} :
      step.Alike first.handles second.handles other →
      Alike (first.take step).2 (second.take other).2 rest others →
      Alike first second (step :: rest) (other :: others)

/-! ### What a step adds -/

namespace Arena

/-- Whatever stands in the arena afterwards stood in it before, or is new and has been given a
handle. -/
structure Continues (given : List Handle) (before after : Arena) : Prop where
  epoch_le : before.epoch ≤ after.epoch
  entry : ∀ handle entry, after.table.entryOf? handle = some entry →
    (∃ old, before.table.entryOf? handle = some old ∧ old.born = entry.born) ∨
      (handle ∈ given ∧ before.epoch ≤ entry.born)

variable {arena : Arena} {issued : Nat}

theorem continues_refl (arena : Arena) (given : List Handle) : Continues given arena arena where
  epoch_le := Nat.le_refl _
  entry _ entry hentry := .inl ⟨entry, hentry, rfl⟩

theorem Continues.trans {between after : Arena} {given : List Handle}
    (hfirst : Continues [] arena between) (hsecond : Continues given between after) :
    Continues given arena after where
  epoch_le := Nat.le_trans hfirst.epoch_le hsecond.epoch_le
  entry handle entry hentry := by
    rcases hsecond.entry handle entry hentry with ⟨old, hold, hborn⟩ | ⟨hgiven, hborn⟩
    · rcases hfirst.entry handle old hold with ⟨first, hfirstEntry, hfirstBorn⟩ | ⟨hnone, -⟩
      · exact .inl ⟨first, hfirstEntry, hfirstBorn.trans hborn⟩
      · cases hnone
    · exact .inr ⟨hgiven, Nat.le_trans hfirst.epoch_le hborn⟩

/-- Whatever beyond a mark is young stays so. -/
theorem YoungBeyond.of_continues {after : Arena} {given : List Handle} {epoch highWater : Nat}
    (hyoung : arena.YoungBeyond epoch highWater) (hepoch : epoch ≤ arena.epoch)
    (hcontinues : Continues given arena after) : after.YoungBeyond epoch highWater := by
  intro handle entry hentry hindex
  rcases hcontinues.entry handle entry hentry with ⟨old, hold, hborn⟩ | ⟨-, hborn⟩
  · exact hborn ▸ hyoung handle old hold hindex
  · exact Nat.le_trans hepoch hborn

theorem continues_shade (arena : Arena) (root : Handle) :
    Continues [] arena (arena.shade root) where
  epoch_le := Nat.le_of_eq (shade_epoch arena root).symm
  entry handle entry hentry := by
    rw [entryOf?_shade] at hentry
    split at hentry
    · obtain ⟨old, hold, rfl⟩ := Option.map_eq_some_iff.mp hentry
      exact .inl ⟨old, hold, rfl⟩
    · exact .inl ⟨entry, hentry, rfl⟩

theorem continues_foldl_shade (arena : Arena) (roots : List Handle) :
    Continues [] arena (roots.foldl shade arena) := by
  induction roots generalizing arena with
  | nil => exact continues_refl arena []
  | cons root rest ih => exact (arena.continues_shade root).trans (ih _)

theorem Coherent.continues_allocate (hcoherent : arena.Coherent issued) {node : Node}
    {allocation : Allocation} {after : Arena}
    (hallocate : arena.allocate node = .ok (allocation, after)) :
    Continues [allocation.handle] arena after := by
  obtain ⟨-, -, ⟨handle, rfl, -, rfl⟩ | ⟨hnew, hroom, rfl, rfl⟩⟩ := allocate_cases hallocate
  · refine (arena.continues_shade handle).trans (continues_refl _ _)
  · refine (arena.continues_foldl_shade node.children).trans ?_
    obtain ⟨-, -, hentry⟩ := (hcoherent.foldl_shade node.children).place
      (by rwa [foldl_shade_eq Arena.size shade_size, foldl_shade_eq Arena.capacity shade_capacity])
      (by rwa [foldl_shade_eq Arena.interned shade_interned])
    -- only the entry of the new node is new, and it carries the epoch of now
    refine ⟨Nat.le_of_eq (place_epoch _ _).symm, fun other entry hother => ?_⟩
    rw [hentry] at hother
    split at hother
    · rename_i hsame
      obtain rfl := Option.some.inj hother
      exact .inr ⟨List.mem_singleton.mpr hsame, Nat.le_refl _⟩
    · exact .inl ⟨entry, hother, rfl⟩

theorem continues_remove {handle : Handle} {entry : Entry} (node : Node)
    (hentry : arena.table.entryOf? handle = some entry) (given : List Handle) :
    Continues given arena (arena.remove handle node) where
  epoch_le := Nat.le_refl _
  entry other otherEntry hother := by
    rw [Coherent.entryOf?_remove node hentry] at hother
    split at hother
    · cases hother
    · exact .inl ⟨otherEntry, hother, rfl⟩

theorem Coherent.continues_reclaimAll (hcoherent : arena.Coherent issued) (epoch : Nat)
    (isLive : Handle → Bool) (indices : List Nat) (given : List Handle) :
    Continues given arena (arena.reclaimAll epoch isLive indices) where
  epoch_le := Nat.le_of_eq (reclaimAll_epoch indices).symm
  entry _ entry hentry := .inl ⟨entry, hcoherent.entryOf?_of_reclaimAll hentry, rfl⟩

end Arena

/-! ### Twin dialogues -/

/-- Corresponding cycles of twins. -/
structure Cycle.Twins (past : Past) (arena : Arena) (new used : Cycle) : Prop where
  epoch_eq : used.epoch = past.epochs + new.epoch
  begun : 0 < new.epoch
  epoch_le : new.epoch ≤ arena.epoch
  highWater_le : new.highWater ≤ used.highWater
  young : arena.YoungBeyond new.epoch new.highWater

/-- Corresponding answers of twins. -/
structure StoreReply.Twins (past : Past) (after : Arena) (new used : StoreReply) : Prop where
  unaged_eq : used.unaged = new.unaged
  handles_eq : used.handles = new.handles.map past.handle
  cycles : List.Forall₂ (Cycle.Twins past after) new.cycles used.cycles

namespace Dialogue

variable {past : Past} {reused : Nat} {new used : Dialogue}

/-- The stores are twins and have given corresponding answers, with a handle for every node that is
there. -/
structure Twins (past : Past) (reused : Nat) (new used : Dialogue) : Prop where
  arena : Arena.Twins past reused new.store.arena used.store.arena
  handles_eq : used.handles = new.handles.map past.handle
  known : ∀ handle, new.store.arena.contains handle = true → handle ∈ new.handles
  cycles : List.Forall₂ (Cycle.Twins past new.store.arena) new.cycles used.cycles

/-- Corresponding answers to a step, with the stores after it. -/
structure Agree (past : Past) (reused : Nat) (before : Arena) (new used : StoreReply × Store) :
    Prop where
  arena : Arena.Twins past reused new.2.arena used.2.arena
  reply : new.1.Twins past new.2.arena used.1
  continues : Arena.Continues new.1.handles before new.2.arena

/-- Corresponding results: both stores have answered, or both have turned the question down for the
same reason. -/
def ResultsAgree (past : Past) (reused : Nat) (before : Arena) :
    Except HeapError (StoreReply × Store) → Except HeapError (StoreReply × Store) → Prop
  | .ok answer, .ok usedAnswer => Agree past reused before answer usedAnswer
  | .error error, .error usedError => usedError.unaged = error.unaged
  | _, _ => False

namespace Twins

theorem getElem?_handles (htwins : Twins past reused new used) (position : Nat) :
    used.handles[position]? = new.handles[position]?.map past.handle := by
  rw [htwins.handles_eq, List.getElem?_map]

/-- Both dialogues have begun a cycle in this place, or neither has. -/
theorem getElem?_cycles (htwins : Twins past reused new used) (position : Nat) :
    (new.cycles[position]? = none ∧ used.cycles[position]? = none) ∨
      ∃ cycle usedCycle, new.cycles[position]? = some cycle ∧
        used.cycles[position]? = some usedCycle ∧
        Cycle.Twins past new.store.arena cycle usedCycle := by
  obtain ⟨hlength, hcycles⟩ := List.forall₂_iff_get.mp htwins.cycles
  rcases Nat.lt_or_ge position new.cycles.length with hlt | hge
  · have husedLt : position < used.cycles.length := hlength ▸ hlt
    exact .inr ⟨_, _, List.getElem?_eq_getElem hlt, List.getElem?_eq_getElem husedLt,
      hcycles position hlt husedLt⟩
  · exact .inl ⟨List.getElem?_eq_none hge, List.getElem?_eq_none (hlength ▸ hge)⟩

theorem mapM_handles (htwins : Twins past reused new used) (positions : List Nat) :
    positions.mapM (used.handles[·]?) =
      (positions.mapM (new.handles[·]?)).map (List.map past.handle) := by
  induction positions with
  | nil => rfl
  | cons position rest ih =>
      rw [List.mapM_cons, List.mapM_cons, ih, htwins.getElem?_handles]
      cases new.handles[position]? with
      | none => rfl
      | some handle =>
          cases rest.mapM (new.handles[·]?) with
          | none => rfl
          | some handles => rfl

/-! ### The answers to a step -/

/-- What is answered without a change to the store. -/
theorem agree_unchanged (htwins : Twins past reused new used) {reply usedReply : StoreReply}
    (hunaged : usedReply.unaged = reply.unaged)
    (hhandles : usedReply.handles = reply.handles.map past.handle)
    (hnone : reply.cycles = []) (husedNone : usedReply.cycles = []) :
    Agree past reused new.store.arena (reply, new.store) (usedReply, used.store) where
  arena := htwins.arena
  reply := ⟨hunaged, hhandles, by rw [hnone, husedNone]; exact .nil⟩
  continues := Arena.continues_refl _ _

theorem agree_unanswered (htwins : Twins past reused new used) :
    Agree past reused new.store.arena (.unanswered, new.store) (.unanswered, used.store) :=
  htwins.agree_unchanged rfl rfl rfl rfl

theorem agree_failed (htwins : Twins past reused new used) {error usedError : HeapError}
    (hunaged : usedError.unaged = error.unaged) :
    Agree past reused new.store.arena (.failed error, new.store) (.failed usedError, used.store) :=
  htwins.agree_unchanged (congrArg StoreReply.failed hunaged) rfl rfl rfl

theorem agree_about (htwins : Twins past reused new used) (position : Nat)
    {ask usedAsk : Handle → Except HeapError (StoreReply × Store)}
    (hask : ∀ handle, ResultsAgree past reused new.store.arena (ask handle)
      (usedAsk (past.handle handle))) :
    Agree past reused new.store.arena (new.about position ask) (used.about position usedAsk) := by
  unfold about
  rw [htwins.getElem?_handles]
  cases new.handles[position]? with
  | none => exact htwins.agree_unanswered
  | some handle =>
      have hresults := hask handle
      dsimp only [Option.map_some]
      -- an answer of one kind against one of the other contradicts what agrees
      cases hnew : ask handle with
      | ok answer =>
          cases hused : usedAsk (past.handle handle) with
          | ok usedAnswer => rwa [hnew, hused] at hresults
          | error error => rw [hnew, hused] at hresults; cases hresults
      | error error =>
          cases hused : usedAsk (past.handle handle) with
          | ok usedAnswer => rw [hnew, hused] at hresults; cases hresults
          | error usedError =>
              rw [hnew, hused] at hresults
              exact htwins.agree_failed hresults

theorem agree_release (htwins : Twins past reused new used) (handle : Handle) :
    ResultsAgree past reused new.store.arena
      ((new.store.release handle).map fun (node, store) => (.released node, store))
      ((used.store.release (past.handle handle)).map
        fun (node, store) => (.released node, store)) := by
  unfold Store.release Arena.release
  rw [htwins.arena.entryOf?]
  cases hentry : new.store.arena.table.entryOf? handle with
  | none => exact past.unaged_invalidHandle handle
  | some entry =>
      exact
        { arena := htwins.arena.remove hentry
          reply := ⟨congrArg StoreReply.released (past.unaged_node entry.node), rfl, .nil⟩
          continues := Arena.continues_remove entry.node hentry _ }

theorem agree_shade (htwins : Twins past reused new used) (handle : Handle) :
    ResultsAgree past reused new.store.arena
      ((new.store.shade handle).map fun store => (.done, store))
      ((used.store.shade (past.handle handle)).map fun store => (.done, store)) := by
  unfold Store.shade
  rw [htwins.arena.contains]
  split
  · exact
      { arena := htwins.arena.shade handle
        reply := ⟨rfl, rfl, .nil⟩
        continues := new.store.arena.continues_shade handle }
  · exact past.unaged_invalidHandle handle

theorem agree_node (htwins : Twins past reused new used) (handle : Handle) :
    ResultsAgree past reused new.store.arena
      ((new.store.node handle).map fun node => (.named node, new.store))
      ((used.store.node (past.handle handle)).map fun node => (.named node, used.store)) := by
  unfold Store.node
  rw [htwins.arena.node?]
  cases new.store.arena.node? handle with
  | none => exact past.unaged_invalidHandle handle
  | some node =>
      exact htwins.agree_unchanged (congrArg StoreReply.named (past.unaged_node node)) rfl rfl rfl

theorem agree_childrenOf (htwins : Twins past reused new used) (handle : Handle) :
    ResultsAgree past reused new.store.arena
      ((new.store.childrenOf handle).map fun children => (.children children, new.store))
      ((used.store.childrenOf (past.handle handle)).map
        fun children => (.children children, used.store)) := by
  unfold Store.childrenOf Store.node
  rw [htwins.arena.node?]
  cases new.store.arena.node? handle with
  | none => exact past.unaged_invalidHandle handle
  | some node =>
      exact htwins.agree_unchanged
        (congrArg StoreReply.children (past.unaged_handles node.children)) rfl rfl rfl

/-- Both stores allocate the node, or neither does. -/
theorem allocate (htwins : Twins past reused new used) (node : Node) :
    (∃ allocation store usedStore, new.store.allocate node = .ok (allocation, store) ∧
        used.store.allocate (past.node node) = .ok (past.allocation allocation, usedStore) ∧
        Arena.Twins past reused store.arena usedStore.arena ∧
        Arena.Continues [allocation.handle] new.store.arena store.arena) ∨
      ∃ error usedError, new.store.allocate node = .error error ∧
        used.store.allocate (past.node node) = .error usedError ∧
        usedError.unaged = error.unaged := by
  unfold Store.allocate
  rcases htwins.arena.allocate node with
    ⟨allocation, after, usedAfter, hnew, hused, hafter⟩ | ⟨error, usedError, hnew, hused, hunaged⟩
  · have hcontinues := Arena.Coherent.continues_allocate htwins.arena.whole hnew
    rw [hnew, hused]
    cases allocation with
    | shared handle => exact .inl ⟨_, _, _, rfl, rfl, hafter, hcontinues⟩
    | fresh handle => exact .inl ⟨_, _, _, rfl, rfl, hafter, hcontinues⟩
  · rw [hnew, hused]
    exact .inr ⟨error, usedError, rfl, rfl, hunaged⟩

theorem agree_allocate (htwins : Twins past reused new used) (op : Op) (positions : List Nat)
    (width : UInt32) :
    Agree past reused new.store.arena (new.answer (.allocate op positions width))
      (used.answer (.allocate op positions width)) := by
  unfold answer
  dsimp only
  rw [htwins.mapM_handles]
  cases positions.mapM (new.handles[·]?) with
  | none => exact htwins.agree_unanswered
  | some children =>
      have hnode : past.node ⟨op, children, width⟩ = ⟨op, children.map past.handle, width⟩ := rfl
      dsimp only [Option.map_some]
      rw [← hnode]
      rcases htwins.allocate ⟨op, children, width⟩ with
        ⟨allocation, store, usedStore, hnew, hused, hafter, hcontinues⟩ |
        ⟨error, usedError, hnew, hused, hunaged⟩
      · rw [hnew, hused]
        exact
          { arena := hafter
            reply := ⟨congrArg StoreReply.allocated (past.unaged_allocation allocation),
              congrArg (fun handle => [handle]) (past.handle_allocation allocation), .nil⟩
            continues := hcontinues }
      · rw [hnew, hused]
        exact htwins.agree_failed hunaged

theorem agree_sweep (htwins : Twins past reused new used) (position batch : Nat)
    {isLive usedIsLive : Handle → Bool}
    (hlive : ∀ (position : Nat) (one corresponding : Handle), used.handles[position]? = some one →
      new.handles[position]? = some corresponding → usedIsLive one = isLive corresponding) :
    Agree past reused new.store.arena (new.answer (.sweep position batch isLive))
      (used.answer (.sweep position batch usedIsLive)) := by
  -- the predicates are compared on handles that were given out, and what is there is one of them
  have hknown : ∀ handle, new.store.arena.contains handle = true →
      usedIsLive (past.handle handle) = isLive handle := by
    intro handle hcontains
    obtain ⟨place, hplace⟩ := List.mem_iff_getElem?.mp (htwins.known handle hcontains)
    refine hlive place (past.handle handle) handle ?_ hplace
    rw [htwins.getElem?_handles, hplace]
    rfl
  unfold answer
  dsimp only
  rcases htwins.getElem?_cycles position with
    ⟨hnew, hused⟩ | ⟨cycle, usedCycle, hnew, hused, hcycle⟩
  · rw [hnew, hused]
    exact htwins.agree_unanswered
  · rw [hnew, hused]
    dsimp only
    rw [hcycle.epoch_eq]
    obtain ⟨hfreed, hafter⟩ := Store.sweep_twins htwins.arena hcycle.begun hknown
      hcycle.highWater_le hcycle.young batch batch
    refine
      { arena := hafter
        reply := ⟨?_, ?_, .nil⟩
        continues := ?_ }
    · dsimp only
      rw [hfreed, Array.toList_map]
      exact congrArg StoreReply.swept (past.unaged_handles _)
    · dsimp only
      rw [hfreed]
      exact Array.toList_map
    · dsimp only
      rw [Store.arena_sweep]
      exact Arena.Coherent.continues_reclaimAll htwins.arena.whole _ _ _ _

theorem agree_beginCycle (htwins : Twins past reused new used) :
    Agree past reused new.store.arena (new.answer .beginCycle) (used.answer .beginCycle) where
  arena := htwins.arena.beginCycle
  reply := by
    refine ⟨rfl, rfl, .cons ?_ .nil⟩
    exact
      { epoch_eq := htwins.arena.beginCycle.epoch_eq
        begun := Nat.succ_pos _
        epoch_le := Nat.le_refl _
        highWater_le :=
          Nat.le_trans (Nat.le_max_right _ _) htwins.arena.coherent_used.issued_le_size
        young := fun handle entry hentry hbeyond =>
          absurd (Arena.Coherent.index_lt htwins.arena.whole hentry) (Nat.not_lt.mpr hbeyond) }
  continues := ⟨Nat.le_succ _, fun _ entry hentry => .inl ⟨entry, hentry, rfl⟩⟩

theorem agree_endCycle (htwins : Twins past reused new used) :
    Agree past reused new.store.arena (new.answer .endCycle) (used.answer .endCycle) where
  arena := htwins.arena.endCycle
  reply := ⟨rfl, rfl, .nil⟩
  continues := ⟨Nat.le_refl _, fun _ entry hentry => .inl ⟨entry, hentry, rfl⟩⟩

/-- **Twins give corresponding answers to the same step.** -/
theorem agree (htwins : Twins past reused new used) {step usedStep : StoreStep}
    (halike : usedStep.Alike used.handles new.handles step) :
    Agree past reused new.store.arena (new.answer step) (used.answer usedStep) := by
  cases halike with
  | allocate op children width => exact htwins.agree_allocate op children width
  | release handle => exact htwins.agree_about handle htwins.agree_release
  | shade handle => exact htwins.agree_about handle htwins.agree_shade
  | node handle => exact htwins.agree_about handle htwins.agree_node
  | childrenOf handle => exact htwins.agree_about handle htwins.agree_childrenOf
  | beginCycle => exact htwins.agree_beginCycle
  | sweep cycle batch hlive => exact htwins.agree_sweep cycle batch hlive
  | endCycle => exact htwins.agree_endCycle

/-! ### The dialogues go on -/

/-- A step that has gone the same way in both dialogues leaves them twins. -/
theorem of_agree (htwins : Twins past reused new used) {answer usedAnswer : StoreReply × Store}
    (hagree : Agree past reused new.store.arena answer usedAnswer) :
    Twins past reused ⟨answer.2, new.handles ++ answer.1.handles, new.cycles ++ answer.1.cycles⟩
      ⟨usedAnswer.2, used.handles ++ usedAnswer.1.handles,
        used.cycles ++ usedAnswer.1.cycles⟩ where
  arena := hagree.arena
  handles_eq := by
    rw [hagree.reply.handles_eq, htwins.handles_eq, List.map_append]
  known handle hcontains := by
    obtain ⟨entry, hentry⟩ := Arena.exists_entry_of_contains hcontains
    -- what is there now was there before or has just been answered
    rcases hagree.continues.entry handle entry hentry with ⟨old, hold, -⟩ | ⟨hgiven, -⟩
    · exact List.mem_append_left _ (htwins.known handle (Arena.contains_of_entryOf? hold))
    · exact List.mem_append_right _ hgiven
  cycles := by
    refine List.rel_append (htwins.cycles.imp fun cycle usedCycle hcycle => ?_) hagree.reply.cycles
    exact
      { epoch_eq := hcycle.epoch_eq
        begun := hcycle.begun
        epoch_le := Nat.le_trans hcycle.epoch_le hagree.continues.epoch_le
        highWater_le := hcycle.highWater_le
        young := hcycle.young.of_continues hcycle.epoch_le hagree.continues }

theorem take (htwins : Twins past reused new used) {step usedStep : StoreStep}
    (halike : usedStep.Alike used.handles new.handles step) :
    (used.take usedStep).1.unaged = (new.take step).1.unaged ∧
      Twins past reused (new.take step).2 (used.take usedStep).2 :=
  have hagree := htwins.agree halike
  ⟨hagree.reply.unaged_eq, htwins.of_agree hagree⟩

/-- **Twins answer alike** to the same steps, however many, and are of the same size after each. -/
theorem unagedAnswers_eq (htwins : Twins past reused new used) {steps usedSteps : List StoreStep}
    (halike : used.Alike new usedSteps steps) :
    used.unagedAnswers usedSteps = new.unagedAnswers steps := by
  -- one step keeps the stores twins, and that is what the rest of the dialogue starts from
  induction usedSteps generalizing new used steps with
  | nil =>
      cases halike
      rfl
  | cons usedStep usedRest ih =>
      cases halike with
      | cons hstep hrest =>
          obtain ⟨hreply, hafter⟩ := htwins.take hstep
          unfold unagedAnswers
          dsimp only
          rw [ih hafter hrest, hreply, Store.size, hafter.arena.size_eq]
          rfl

end Twins

end Dialogue

end ExprHeap
