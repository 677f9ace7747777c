import ExprHeap.Proofs.ShadowFrames
import Mathlib.Data.Nat.PSub

/-!
# Taking in one byte of a checksum

All that the checksum of an input ever builds are a constant and, for every offset, five
expressions: the byte, the byte widened, the accumulator with this byte mixed in, that accumulator
shifted, and the comparison with the byte before.  So a heap with room for five nodes a byte and one
more never turns it down (`Session.Housed`), whenever collections run.  Inputs that take more nodes
than handles can tell apart are the exception, since no heap has room for these: then the store may
be full in the middle, and nothing else goes wrong (`ComesOut`).

`Running` is what holds between two bytes: the frame of the callee holds the accumulator and the
last byte, and a slot of the caller's the comparison at the last offset that belongs there.
-/

namespace ExprHeap.ShadowStack

/-! ### Expressions -/

/-- The input byte at an offset. -/
def byte (offset : Nat) : Tree := .node (.input (UInt64.ofNat offset)) 8 []

/-- The byte at an offset, widened to 32 bits. -/
def wide (offset : Nat) : Tree := .node (.cast .zeroExtend) 32 [byte offset]

/-- The constant one. -/
def one : Tree := .node (.integer 1) 32 []

/-- The accumulator once the byte at an offset has been mixed in. -/
def accumulated : Nat → Tree
  | 0 => wide 0
  | offset + 1 =>
    .node (.binary .xor) 32
      [.node (.binary .shiftLeft) 32 [accumulated offset, one], wide (offset + 1)]

/-- The accumulator, shifted to make room for the next byte. -/
def shifted (offset : Nat) : Tree := .node (.binary .shiftLeft) 32 [accumulated offset, one]

/-- Whether the byte before an offset is less than the byte there. -/
def comparison (offset : Nat) : Tree :=
  .node (.compare .unsignedLessThan) 1 [byte (offset - 1), byte offset]

/-- The expressions that belong to an offset. -/
def expressionsAt (offset : Nat) : List Tree :=
  [byte offset, wide offset, accumulated offset, shifted offset, comparison offset]

/-- All expressions that an input of so many bytes takes. -/
def expressions (limit : Nat) : List Tree := one :: (List.range limit).flatMap expressionsAt

theorem length_expressions (limit : Nat) : (expressions limit).length = 5 * limit + 1 := by
  simp [expressions, expressionsAt, Nat.mul_comm]

theorem mem_expressions {limit offset : Nat} (hoffset : offset < limit) {tree : Tree}
    (hmem : tree ∈ expressionsAt offset) : tree ∈ expressions limit :=
  List.mem_cons_of_mem _ (List.mem_flatMap.mpr ⟨offset, List.mem_range.mpr hoffset, hmem⟩)

theorem width_accumulated (offset : Nat) : (accumulated offset).width = 32 := by
  cases offset with
  | zero => rfl
  | succ offset => rfl

theorem accumulated_injective : Function.Injective accumulated := by
  intro first
  induction first with
  | zero =>
      intro second hsame
      cases second with
      | zero => rfl
      | succ second => simp [accumulated, wide] at hsame
  | succ first ih =>
      intro second hsame
      cases second with
      | zero => simp [accumulated, wide] at hsame
      | succ second =>
          simp only [accumulated, Tree.node.injEq, List.cons.injEq, true_and, and_true] at hsame
          exact congrArg Nat.succ (ih hsame.1)

section

variable {arena : Arena} {issued offset : Nat} {handle : Handle}

/-- Below an accumulator there are all those before it. -/
theorem exists_accumulated (hdenotes : arena.Denotes (accumulated offset) handle) {earlier : Nat}
    (hearlier : earlier ≤ offset) : ∃ other, arena.Denotes (accumulated earlier) other := by
  induction offset generalizing handle with
  | zero =>
      obtain rfl := Nat.le_zero.mp hearlier
      exact ⟨handle, hdenotes⟩
  | succ offset ih =>
      rcases Nat.eq_or_lt_of_le hearlier with rfl | hlt
      · exact ⟨handle, hdenotes⟩
      · -- the accumulator is the first operand of the first operand
        obtain ⟨operands, -, hoperands⟩ := hdenotes.node?
        obtain ⟨_, -, hshifted⟩ := hoperands.exists_handle List.mem_cons_self
        obtain ⟨_, -, hoperands'⟩ := hshifted.node?
        obtain ⟨_, -, haccumulated⟩ := hoperands'.exists_handle List.mem_cons_self
        exact ih haccumulated (Nat.le_of_lt_succ hlt)

/-- So an accumulator takes a node for each byte that is mixed into it. -/
theorem lt_size_of_accumulated (hcoherent : arena.Coherent issued)
    (hdenotes : arena.Denotes (accumulated offset) handle) : offset < arena.size := by
  have hall : ∀ earlier, ∃ other, earlier ≤ offset → arena.Denotes (accumulated earlier) other := by
    intro earlier
    by_cases hearlier : earlier ≤ offset
    · obtain ⟨other, hother⟩ := exists_accumulated hdenotes hearlier
      exact ⟨other, fun _ => hother⟩
    · exact ⟨handle, fun h => absurd h hearlier⟩
  -- one node for each offset up to this one, and no two of them the same
  choose handleOf hhandleOf using hall
  have hnodup : ((List.range (offset + 1)).map handleOf).Nodup := by
    refine List.Nodup.map_on (fun first hfirst second hsecond hsame => ?_) List.nodup_range
    have hfirst := hhandleOf first (Nat.le_of_lt_succ (List.mem_range.mp hfirst))
    have hsecond := hhandleOf second (Nat.le_of_lt_succ (List.mem_range.mp hsecond))
    rw [hsame] at hfirst
    exact accumulated_injective (hfirst.tree_unique hsecond)
  have hlength := hcoherent.length_le_size hnodup fun other hother => by
    obtain ⟨earlier, hearlier, rfl⟩ := List.mem_map.mp hother
    exact (hhandleOf earlier (Nat.le_of_lt_succ (List.mem_range.mp hearlier))).contains
  rwa [List.length_map, List.length_range] at hlength

end

/-! ### Computations that come out right -/

section

variable {α β : Type} {limit : Nat} {result : Except Fault α} {right : α → Prop}

/-- What a computation on inputs of so many bytes comes to is right, or the inputs take more nodes
than handles can tell apart and the store was found full. -/
def ComesOut (limit : Nat) (result : Except Fault α) (right : α → Prop) : Prop :=
  (∃ value, result = .ok value ∧ right value) ∨
    Handle.indexBound < 5 * limit + 1 ∧
      result = .error (.unexpected (.outOfMemory Handle.indexBound))

theorem comesOut_ok {value : α} (hright : right value) : ComesOut limit (.ok value) right :=
  .inl ⟨value, rfl, hright⟩

theorem ComesOut.mono (hresult : ComesOut limit result right) {weaker : α → Prop}
    (hweaker : ∀ value, right value → weaker value) : ComesOut limit result weaker := by
  rcases hresult with ⟨value, hok, hright⟩ | hfull
  · exact .inl ⟨value, hok, hweaker value hright⟩
  · exact .inr hfull

/-- A computation goes on from a right value, and stops where the store is full. -/
theorem ComesOut.bind (hresult : ComesOut limit result right) {next : α → Except Fault β}
    {later : β → Prop} (hnext : ∀ value, right value → ComesOut limit (next value) later) :
    ComesOut limit (result >>= next) later := by
  rcases hresult with ⟨value, rfl, hright⟩ | ⟨hlarge, rfl⟩
  · exact hnext value hright
  · exact .inr ⟨hlarge, rfl⟩

end

/-! ### Building them -/

/-- What the heap that has built an expression is like, in a session with this memory. -/
structure Made (limit : Nat) (regions : List Region) (memory : Memory) (tree : Tree)
    (before : Heap) (made : Handle × Heap) : Prop where
  housed : Session.Housed (expressions limit) regions ⟨made.2, memory⟩
  extends_arena : Arena.Extends before.store.arena made.2.store.arena
  denotes : made.2.store.arena.Denotes tree made.1

section

variable {limit offset : Nat} {regions : List Region} {memory : Memory} {heap : Heap}

theorem construct_ok (hhoused : Session.Housed (expressions limit) regions ⟨heap, memory⟩)
    {construction : Construction} {op : Op} {width : UInt32} {children : List Tree}
    {operands : List Handle}
    (hask : construction.toNode heap.store.widthOf = .ok ⟨op, operands, width⟩)
    (harity : operands.length = op.arity)
    (hoperands : heap.store.arena.DenotesAll children operands)
    (hmem : .node op width children ∈ expressions limit) :
    ComesOut limit (construct heap construction)
      (Made limit regions memory (.node op width children) heap) := by
  -- a builder that finds no room answers with the error that breaks the loop off
  rcases hhoused.build hask harity hoperands hmem with
    ⟨handle, after, hbuild, hafter, hextends, hdenotes⟩ | ⟨hcrowded, hfull⟩
  · exact .inl ⟨(handle, after), congrArg expect hbuild, hafter, hextends, hdenotes⟩
  · exact .inr ⟨length_expressions limit ▸ hcrowded, congrArg expect hfull⟩

theorem construct_byte (hhoused : Session.Housed (expressions limit) regions ⟨heap, memory⟩)
    (hoffset : offset < limit) :
    ComesOut limit (construct heap (.input (UInt64.ofNat offset)))
      (Made limit regions memory (byte offset) heap) := by
  have hask : Construction.toNode heap.store.widthOf (.input (UInt64.ofNat offset)) =
      .ok ⟨.input (UInt64.ofNat offset), [], 8⟩ := rfl
  exact construct_ok hhoused hask rfl Arena.denotesAll_nil
    (mem_expressions hoffset (by simp [expressionsAt, byte]))

theorem construct_wide (hhoused : Session.Housed (expressions limit) regions ⟨heap, memory⟩)
    (hoffset : offset < limit) {current : Handle}
    (hcurrent : heap.store.arena.Denotes (byte offset) current) :
    ComesOut limit (construct heap (.cast .zeroExtend current 32))
      (Made limit regions memory (wide offset) heap) := by
  have hask : Construction.toNode heap.store.widthOf (.cast .zeroExtend current 32) =
      .ok ⟨.cast .zeroExtend, [current], 32⟩ := rfl
  exact construct_ok hhoused hask rfl
    (Arena.denotesAll_cons.mpr ⟨hcurrent, Arena.denotesAll_nil⟩)
    (mem_expressions hoffset (by simp [expressionsAt, wide]))

theorem construct_one (hhoused : Session.Housed (expressions limit) regions ⟨heap, memory⟩) :
    ComesOut limit (construct heap (.integer 1 32)) (Made limit regions memory one heap) := by
  have hask : Construction.toNode heap.store.widthOf (.integer 1 32) =
      .ok ⟨.integer 1, [], 32⟩ := rfl
  exact construct_ok hhoused hask rfl Arena.denotesAll_nil List.mem_cons_self

theorem construct_comparison
    (hhoused : Session.Housed (expressions limit) regions ⟨heap, memory⟩)
    (hoffset : offset < limit) {previous current : Handle}
    (hprevious : heap.store.arena.Denotes (byte (offset - 1)) previous)
    (hcurrent : heap.store.arena.Denotes (byte offset) current) :
    ComesOut limit (construct heap (.compare .unsignedLessThan previous current))
      (Made limit regions memory (comparison offset) heap) := by
  have hask : Construction.toNode heap.store.widthOf
      (.compare .unsignedLessThan previous current) =
        .ok ⟨.compare .unsignedLessThan, [previous, current], 1⟩ := rfl
  exact construct_ok hhoused hask rfl (by simp [hprevious, hcurrent])
    (mem_expressions hoffset (by simp [expressionsAt, comparison]))

theorem construct_binary (hhoused : Session.Housed (expressions limit) regions ⟨heap, memory⟩)
    (op : BinaryOp) {left right : Tree} {first second : Handle} (hwidth : left.width = 32)
    (hfirst : heap.store.arena.Denotes left first)
    (hsecond : heap.store.arena.Denotes right second)
    (hmem : .node (.binary op) 32 [left, right] ∈ expressions limit) :
    ComesOut limit (construct heap (.binary op first second))
      (Made limit regions memory (.node (.binary op) 32 [left, right]) heap) := by
  have hask : Construction.toNode heap.store.widthOf (.binary op first second) =
      .ok ⟨.binary op, [first, second], 32⟩ := by
    cases left with
    | node leftOp width children =>
        obtain ⟨operands, hnode, -⟩ := hfirst.node?
        obtain rfl : width = 32 := hwidth
        simp only [Construction.toNode, Store.widthOf, Store.node, hnode, Except.map, bind,
          Except.bind, pure, Except.pure]
  exact construct_ok hhoused hask rfl (by simp [hfirst, hsecond]) hmem

/-- **The accumulator takes in a widened byte.** -/
theorem mix_ok (hhoused : Session.Housed (expressions limit) regions ⟨heap, memory⟩)
    (hoffset : offset < limit) {widened : Handle}
    (hwidened : heap.store.arena.Denotes (wide offset) widened) {slot : UInt64}
    (hholds : Session.Holds ⟨heap, memory⟩ slot (offset.ppred.map accumulated)) :
    ComesOut limit (mix heap widened (Handle.ofWord? (memory.read slot)))
      (Made limit regions memory (accumulated offset) heap) := by
  cases offset with
  | zero =>
      have hnone : Handle.ofWord? (memory.read slot) = none := if_pos hholds
      rw [hnone]
      exact comesOut_ok ⟨hhoused, Arena.Extends.refl _, hwidened⟩
  | succ offset =>
      obtain ⟨accumulator, hsome, haccumulator⟩ := hholds
      rw [hsome, mix]
      -- what has been built denotes the same after each of the next constructions
      refine (construct_one hhoused).bind fun made₁ hmade₁ => ?_
      refine (construct_binary hmade₁.housed .shiftLeft (width_accumulated offset)
        (haccumulator.mono hmade₁.extends_arena) hmade₁.denotes
        (mem_expressions (Nat.lt_of_succ_lt hoffset) (by simp [expressionsAt, shifted]))).bind
          fun made₂ hmade₂ => ?_
      have hextends₂ := hmade₁.extends_arena.trans hmade₂.extends_arena
      refine (construct_binary hmade₂.housed .xor rfl hmade₂.denotes (hwidened.mono hextends₂)
        (mem_expressions hoffset (by simp [expressionsAt, accumulated]))).mono
          fun made₃ hmade₃ => ?_
      exact ⟨hmade₃.housed, hextends₂.trans hmade₃.extends_arena, hmade₃.denotes⟩

end

/-! ### Where the comparisons go -/

/-- The last offset with a byte before it that belongs to a slot, in an input of so many bytes. -/
def lastOffset? (count slot : Nat) : Nat → Option Nat
  | 0 => none
  | offset + 1 =>
    if 1 ≤ offset ∧ offset % count = slot then some offset else lastOffset? count slot offset

/-- The offset whose comparison a slot holds once so many bytes have been taken in, given what it
held before. -/
def heldAfter (count : Nat) (before : Nat → Option Nat) (length slot : Nat) : Option Nat :=
  (lastOffset? count slot length).or (before slot)

theorem heldAfter_succ (count : Nat) (before : Nat → Option Nat) (offset slot : Nat) :
    heldAfter count before (offset + 1) slot =
      if 1 ≤ offset ∧ offset % count = slot then some offset
      else heldAfter count before offset slot := by
  unfold heldAfter
  rw [lastOffset?]
  split
  · rfl
  · rfl

/-- The slots of a frame hold the comparisons at these offsets. -/
def Compares (caller : Frame) (held : Nat → Option Nat) (session : Session) : Prop :=
  ∀ number < caller.length, session.Holds (caller.slot number) ((held number).map comparison)

/-- The frames of a call of the checksum. -/
structure Layout (caller callee : Frame) : Prop where
  caller_addressable : caller.Addressable
  caller_length : caller.length ≠ 0
  callee_addressable : callee.Addressable
  callee_length : callee.length = 2
  apart : caller.Apart callee

/-- What holds in the middle of a call, when so many bytes have been taken in. -/
structure Running (limit : Nat) (caller callee : Frame) (before : Nat → Option Nat) (offset : Nat)
    (session : Session) : Prop where
  housed : session.Housed (expressions limit) [caller.region, callee.region]
  compares : Compares caller (heldAfter caller.length before offset) session
  accumulator : session.Holds (callee.slot 0) (offset.ppred.map accumulated)
  last : session.Holds (callee.slot 1) (offset.ppred.map byte)

section

variable {limit offset : Nat} {regions : List Region} {memory : Memory} {heap : Heap}
  {caller callee : Frame} {before held : Nat → Option Nat} {session : Session} {machine : Machine}

theorem Compares.mono {after : Session} (hcompares : Compares caller held session)
    (hextends : Arena.Extends session.arena after.arena) (hmemory : after.memory = session.memory) :
    Compares caller held after :=
  fun number hnumber => (hcompares number hnumber).mono hextends (by rw [hmemory])

/-- To write into a slot of the callee's leaves the comparisons alone. -/
theorem Compares.write_callee (hcompares : Compares caller held session)
    (hlayout : Layout caller callee) {number : Nat} (hnumber : number < 2) (word : UInt64) :
    Compares caller held
      { session with memory := session.memory.write (callee.slot number) word } := by
  intro other hother
  refine (hcompares other hother).write_other ?_ word
  exact (hlayout.apart.slot_ne hlayout.caller_addressable hlayout.callee_addressable hother
    (hlayout.callee_length.symm ▸ hnumber)).symm

/-- To write the comparison at an offset into its slot is to go on to the next offset. -/
theorem Compares.write_caller (hsound : session.Sound) (haddressable : caller.Addressable)
    (hcompares : Compares caller (heldAfter caller.length before offset) session)
    (hoffset : 1 ≤ offset) {handle : Handle}
    (hdenotes : session.arena.Denotes (comparison offset) handle) :
    Compares caller (heldAfter caller.length before (offset + 1))
      { session with
        memory := session.memory.write (caller.slot (offset % caller.length)) handle.word } := by
  intro number hnumber
  have hlength : 0 < caller.length := Nat.zero_lt_of_lt hnumber
  rw [heldAfter_succ]
  -- the slots of a frame are apart, so no other comparison is written over
  by_cases hsame : offset % caller.length = number
  · rw [if_pos ⟨hoffset, hsame⟩, hsame]
    exact hsound.holds_write hdenotes _
  · rw [if_neg fun hboth => hsame hboth.2]
    refine (hcompares number hnumber).write_other (fun hslot => hsame ?_) _
    exact haddressable.slot_injective (Nat.mod_lt offset hlength) hnumber hslot

/-- What a machine is like that has compared the byte at an offset with the one before it. -/
structure Compared (limit : Nat) (regions : List Region) (caller : Frame)
    (before : Nat → Option Nat) (offset : Nat) (heap : Heap) (after : Machine) : Prop where
  housed : after.session.Housed (expressions limit) regions
  extends_arena : Arena.Extends heap.store.arena after.session.arena
  compares : Compares caller (heldAfter caller.length before (offset + 1)) after.session

/-- **A byte is compared with the one before it.** -/
theorem compareWithPrevious_ok
    (hhoused : Session.Housed (expressions limit) regions ⟨heap, memory⟩)
    (haddressable : caller.Addressable) (hlength : caller.length ≠ 0) (hoffset : offset < limit)
    {current : Handle} (hcurrent : heap.store.arena.Denotes (byte offset) current) {slot : UInt64}
    (hlast : Session.Holds ⟨heap, memory⟩ slot (offset.ppred.map byte))
    (hcompares : Compares caller (heldAfter caller.length before offset) ⟨heap, memory⟩) :
    ComesOut limit (compareWithPrevious ⟨heap, memory⟩ caller offset current
        (Handle.ofWord? (memory.read slot)))
      (Compared limit regions caller before offset heap) := by
  cases offset with
  | zero =>
      have hnone : Handle.ofWord? (memory.read slot) = none := if_pos hlast
      rw [hnone]
      refine comesOut_ok ⟨hhoused, Arena.Extends.refl _, fun number hnumber => ?_⟩
      rw [heldAfter_succ, if_neg fun hboth => Nat.not_succ_le_zero 0 hboth.1]
      exact hcompares number hnumber
  | succ offset =>
      obtain ⟨previous, hsome, hprevious⟩ := hlast
      rw [hsome, compareWithPrevious]
      refine (construct_comparison hhoused hoffset hprevious hcurrent).bind fun made hmade => ?_
      have hbuilt : Compares caller (heldAfter caller.length before (offset + 1))
          ⟨made.2, memory⟩ := hcompares.mono hmade.extends_arena rfl
      dsimp only
      rw [if_neg hlength]
      exact comesOut_ok
        { housed := hmade.housed.write _
          extends_arena := hmade.extends_arena
          compares := hbuilt.write_caller hmade.housed.sound haddressable (Nat.succ_pos offset)
            hmade.denotes }

/-- **A byte is taken in.** -/
theorem Running.absorb (hlayout : Layout caller callee) (hoffset : offset < limit)
    (hrunning : Running limit caller callee before offset machine.session) :
    ComesOut limit (absorb machine caller callee offset) fun after =>
      Running limit caller callee before (offset + 1) after.session := by
  obtain ⟨heap, memory⟩ := machine
  rw [ShadowStack.absorb]
  refine (construct_byte hrunning.housed hoffset).bind fun made₁ hmade₁ => ?_
  refine (construct_wide hmade₁.housed hoffset hmade₁.denotes).bind fun made₂ hmade₂ => ?_
  have hextends₂ := hmade₁.extends_arena.trans hmade₂.extends_arena
  refine (mix_ok hmade₂.housed hoffset hmade₂.denotes
    (hrunning.accumulator.mono hextends₂ rfl)).bind fun made₃ hmade₃ => ?_
  have hextends₃ := hextends₂.trans hmade₃.extends_arena
  have hcurrent₃ := (hmade₁.denotes.mono hmade₂.extends_arena).mono hmade₃.extends_arena
  refine (compareWithPrevious_ok hmade₃.housed hlayout.caller_addressable hlayout.caller_length
    hoffset hcurrent₃ (hrunning.last.mono hextends₃ rfl)
    (hrunning.compares.mono hextends₃ rfl)).bind fun after hcompared => comesOut_ok ?_
  -- the accumulator goes into the first slot of the callee's, and the byte into the second
  have hslots : callee.slot 1 ≠ callee.slot 0 := fun hsame => Nat.one_ne_zero
    (hlayout.callee_addressable.slot_injective (by rw [hlayout.callee_length]; decide)
      (by rw [hlayout.callee_length]; decide) hsame)
  have hfirst := hcompared.housed.write (after.memory.write (callee.slot 0) made₃.1.word)
  have hwritten := hcompared.housed.sound.holds_write (hmade₃.denotes.mono hcompared.extends_arena)
    (callee.slot 0)
  exact
    { housed := hfirst.write _
      compares := (hcompared.compares.write_callee hlayout Nat.zero_lt_two _).write_callee hlayout
        Nat.one_lt_two _
      accumulator := hwritten.write_other hslots _
      last := hfirst.sound.holds_write (hcurrent₃.mono hcompared.extends_arena) _ }

end

end ExprHeap.ShadowStack
