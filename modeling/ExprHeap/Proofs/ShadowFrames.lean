import ExprHeap.Proofs.Populations
import ExprHeap.Proofs.Registration
import ExprHeap.ShadowStack

/-!
# Frames on the shadow stack

The slots of a frame have addresses of their own, and share none with a frame that lies apart from
it.  So to write into one slot leaves all the others alone, and so does pushing a frame.

A frame that is pushed joins the regions, and popping it takes it out of them again; neither touches
a node.
-/

namespace ExprHeap

theorem Memory.read_fill (memory : Memory) (base : UInt64) (count : Nat) (word address : UInt64) :
    (memory.fill base count word).read address =
      if ∃ slot < count, slotAddress base slot = address then word else memory.read address := by
  induction count with
  | zero => simp [fill]
  | succ count ih =>
      -- the slots are filled upwards, so the last of them is written last
      have hsucc : memory.fill base (count + 1) word =
          (memory.fill base count word).write (slotAddress base count) word := by
        simp only [fill, List.range_succ, List.foldl_append, List.foldl_cons, List.foldl_nil]
      rw [hsucc, read_write, ih]
      by_cases hlast : slotAddress base count = address
      · rw [if_pos hlast, if_pos ⟨count, Nat.lt_succ_self count, hlast⟩]
      · have hsame : (∃ slot < count + 1, slotAddress base slot = address) ↔
            ∃ slot < count, slotAddress base slot = address := by
          refine ⟨fun ⟨slot, hlt, hslot⟩ => ⟨slot, ?_, hslot⟩,
            fun ⟨slot, hlt, hslot⟩ => ⟨slot, Nat.lt_succ_of_lt hlt, hslot⟩⟩
          rcases Nat.lt_succ_iff_lt_or_eq.mp hlt with hbefore | rfl
          · exact hbefore
          · exact absurd hslot hlast
        simp only [if_neg hlast, hsame]

/-! ### What a slot holds -/

namespace Session

variable {session after : Session} {slot : UInt64} {content : Option Tree}

/-- A slot holds the handle of an expression or, without one, the null word. -/
def Holds (session : Session) (slot : UInt64) : Option Tree → Prop
  | none => session.memory.read slot = 0
  | some tree => ∃ handle, Handle.ofWord? (session.memory.read slot) = some handle ∧
    session.arena.Denotes tree handle

theorem Holds.mono (hholds : session.Holds slot content)
    (hextends : Arena.Extends session.arena after.arena)
    (hmemory : after.memory.read slot = session.memory.read slot) : after.Holds slot content := by
  cases content with
  | none => exact hmemory.trans hholds
  | some tree =>
      obtain ⟨handle, hhandle, hdenotes⟩ := hholds
      exact ⟨handle, by rw [hmemory, hhandle], hdenotes.mono hextends⟩

theorem Holds.of_keeps {slots : List UInt64} (hkeeps : Keeps slots session after)
    (hslot : slot ∈ slots) (hholds : session.Holds slot content) : after.Holds slot content := by
  cases content with
  | none =>
      show after.memory.read slot = 0
      rw [hkeeps.memory]
      exact hholds
  | some tree =>
      obtain ⟨handle, hhandle, hdenotes⟩ := hholds
      refine ⟨handle, ?_, hkeeps.denotes slot hslot handle hhandle tree hdenotes⟩
      rw [hkeeps.memory, hhandle]

/-- The slot that a handle is written into holds what the handle stands for. -/
theorem Sound.holds_write (hsound : session.Sound) {tree : Tree} {handle : Handle}
    (hdenotes : session.arena.Denotes tree handle) (slot : UInt64) :
    Holds { session with memory := session.memory.write slot handle.word } slot (some tree) := by
  obtain ⟨_, hcoherent⟩ := hsound.coherent
  refine ⟨handle, ?_, hdenotes⟩
  rw [Memory.read_write, if_pos rfl]
  exact Handle.ofWord?_word (Marking.generation_ne_zero_of_contains hcoherent hdenotes.contains)

/-- What the other slots hold stays. -/
theorem Holds.write_other (hholds : session.Holds slot content) {other : UInt64}
    (hother : other ≠ slot) (word : UInt64) :
    Holds { session with memory := session.memory.write other word } slot content := by
  refine hholds.mono (Arena.Extends.refl _) ?_
  rw [Memory.read_write, if_neg hother]

end Session

namespace ShadowStack

/-- The heap and the memory of a machine. -/
def Machine.session (machine : Machine) : Session := ⟨machine.heap, machine.memory⟩

namespace Frame

variable {frame first second : Frame} {number other : Nat}

/-- The slots are aligned, and all of them can be addressed. -/
def Addressable (frame : Frame) : Prop :=
  frame.base ≠ 0 ∧ 8 ∣ frame.base.toNat ∧ frame.base.toNat + 8 * frame.length ≤ 2 ^ 64 - 1

instance (frame : Frame) : Decidable frame.Addressable :=
  inferInstanceAs (Decidable (_ ∧ _ ∧ _))

/-- The frames share no memory. -/
def Apart (first second : Frame) : Prop :=
  first.base.toNat + 8 * first.length ≤ second.base.toNat ∨
    second.base.toNat + 8 * second.length ≤ first.base.toNat

instance (first second : Frame) : Decidable (first.Apart second) :=
  inferInstanceAs (Decidable (_ ∨ _))

/-- The address of a slot. -/
def slot (frame : Frame) (number : Nat) : UInt64 := Memory.slotAddress frame.base number

/-- The region that a frame is while it is on the stack. -/
def region (frame : Frame) : Region := ⟨frame.base, UInt64.ofNat frame.length, .stackShadow⟩

theorem Addressable.toNat_length (haddressable : frame.Addressable) :
    (UInt64.ofNat frame.length).toNat = frame.length := by
  obtain ⟨-, -, hbound⟩ := haddressable
  rw [UInt64.toNat_ofNat']
  omega

theorem Addressable.placeable (haddressable : frame.Addressable) :
    Placeable frame.base (UInt64.ofNat frame.length) := by
  refine ⟨haddressable.1, haddressable.2.1, ?_⟩
  rw [haddressable.toNat_length]
  exact haddressable.2.2

theorem Addressable.toNat_slot (haddressable : frame.Addressable)
    (hnumber : number < frame.length) :
    (frame.slot number).toNat = frame.base.toNat + 8 * number := by
  have hplaceable : Placeable frame.region.base frame.region.length := haddressable.placeable
  exact Region.toNat_address hplaceable
    (Nat.lt_of_lt_of_eq hnumber haddressable.toNat_length.symm)

theorem Addressable.slot_injective (haddressable : frame.Addressable)
    (hnumber : number < frame.length) (hother : other < frame.length)
    (hsame : frame.slot number = frame.slot other) : number = other := by
  have hnat := congrArg UInt64.toNat hsame
  rw [haddressable.toNat_slot hnumber, haddressable.toNat_slot hother] at hnat
  omega

theorem Apart.slot_ne (hapart : first.Apart second) (hfirst : first.Addressable)
    (hsecond : second.Addressable) (hnumber : number < first.length)
    (hother : other < second.length) : first.slot number ≠ second.slot other := by
  intro hsame
  have hnat := congrArg UInt64.toNat hsame
  rw [hfirst.toNat_slot hnumber, hsecond.toNat_slot hother] at hnat
  unfold Apart at hapart
  omega

theorem Apart.range_ne (hapart : first.Apart second) (hfirst : first.length ≠ 0)
    (hsecond : second.length ≠ 0) : first.region.range ≠ second.region.range := by
  intro hsame
  have hbase : first.base = second.base := congrArg Prod.fst hsame
  unfold Apart at hapart
  rw [hbase] at hapart
  omega

theorem Addressable.slot_mem (haddressable : frame.Addressable) (hnumber : number < frame.length)
    {regions : List Region} (hmem : frame.region ∈ regions) : frame.slot number ∈ slotsIn regions :=
  mem_slotsIn.mpr ⟨frame.region, hmem, number,
    Nat.lt_of_lt_of_eq hnumber haddressable.toNat_length.symm, rfl⟩

theorem Addressable.mem_wordsIn (haddressable : frame.Addressable) {memory : Memory}
    {word : UInt64} : word ∈ wordsIn memory [frame.region] ↔
      ∃ number < frame.length, memory.read (frame.slot number) = word := by
  have hlength : frame.region.length.toNat = frame.length := haddressable.toNat_length
  simp only [wordsIn_eq, List.mem_map, mem_slotsIn, List.mem_singleton, exists_eq_left, hlength]
  constructor
  · rintro ⟨_, ⟨number, hnumber, rfl⟩, hread⟩
    exact ⟨number, hnumber, hread⟩
  · rintro ⟨number, hnumber, hread⟩
    exact ⟨_, ⟨number, hnumber, rfl⟩, hread⟩

/-! ### Pushing and popping -/

variable {machine : Machine} {family : List Tree} {regions : List Region}

/-- **A frame is pushed without fail.**  It becomes the last of the regions, and its slots are
null. -/
theorem push_ok (hhoused : machine.session.Housed family regions)
    (hdistinct : (regions.map Region.range).Nodup) (haddressable : frame.Addressable)
    (hlength : frame.length ≠ 0) (hnew : ∀ known ∈ regions, known.range ≠ frame.region.range) :
    ∃ after, push machine frame.base frame.length = .ok (frame, after) ∧
      after.session.Housed family (regions ++ [frame.region]) ∧
      after.session.arena = machine.session.arena ∧
      after.memory = machine.memory.fill frame.base frame.length 0 := by
  have hempty : ¬ UInt64.ofNat frame.length = 0 := fun hzero => hlength (by
    rw [← haddressable.toNat_length, hzero, UInt64.toNat_zero])
  have hregister : machine.heap.registry.register frame.base (UInt64.ofNat frame.length)
      .stackShadow = .ok { machine.heap.registry with
        queue := machine.heap.registry.queue ++ [.register frame.region] } := by
    rw [Registry.register_eq, if_neg hempty, if_pos haddressable.placeable]
    rfl
  -- the snapshot has settled the queue, and the frame is no range that is registered already
  have hsettled : machine.heap.registry.settled = regions := hhoused.regions_eq
  obtain ⟨-, hanswer⟩ := Registry.answer_eq (hsettled.symm ▸ hdistinct)
    (.register frame.base (UInt64.ofNat frame.length) .stackShadow)
  simp only [Registry.answer, hregister, directAnswer, if_neg hempty,
    if_pos haddressable.placeable, hsettled] at hanswer
  refine ⟨⟨{ machine.heap with registry := { machine.heap.registry with
    queue := machine.heap.registry.queue ++ [.register frame.region] } },
    machine.memory.fill frame.base frame.length 0⟩, ?_, hhoused.of_eq rfl ?_, rfl, rfl⟩
  · simp only [push, Heap.register, hregister, Except.map, expect, bind, Except.bind, pure,
      Except.pure]
  · exact hanswer.trans (enter_of_new hnew)

/-- A frame that is popped is no region any more. -/
theorem housed_pop (frame : Frame) (hhoused : machine.session.Housed family regions)
    (hdistinct : (regions.map Region.range).Nodup) :
    (frame.pop machine).session.Housed family (withdraw frame.region.range regions) := by
  have hsettled : machine.heap.registry.settled = regions := hhoused.regions_eq
  obtain ⟨-, hanswer⟩ := Registry.answer_eq (hsettled.symm ▸ hdistinct)
    (.unregister frame.base (UInt64.ofNat frame.length))
  refine hhoused.of_eq rfl (Eq.trans ?_ (hanswer.trans ?_))
  · rfl
  · rw [hsettled]
    rfl

end Frame

end ShadowStack

end ExprHeap
