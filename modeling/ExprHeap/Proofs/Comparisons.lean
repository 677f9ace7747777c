import ExprHeap.Proofs.Checksums
import Mathlib.Order.Bounds.Basic

/-!
# Checksums, one after the other

Each slot of the caller's holds the comparison at the last offset that belongs there, of the last
input that is long enough to have one (`Remembers`).  That is said of the lengths of the inputs
alone; along a run it is computed (`heldAfter`), and the two agree.

`Running` is kept by every byte and by the collection after it, so by induction a call goes through
all bytes of its input.  Its frame is pushed before and popped afterwards, which leaves the frame of
the caller as the only region: `Resting`, which calls and the collections between them keep.
-/

namespace ExprHeap.ShadowStack

/-! ### The offsets that are remembered -/

section

variable {count slot length offset : Nat} {lengths : List Nat}

end

/-! ### Calls -/

section

variable {limit offset length : Nat} {caller callee : Frame} {before held : Nat → Option Nat}
  {session after : Session} {machine : Machine}

theorem Compares.of_keeps (hcompares : Compares caller held session)
    (haddressable : caller.Addressable) {regions : List Region} (hmem : caller.region ∈ regions)
    (hkeeps : session.Keeps (slotsIn regions) after) : Compares caller held after :=
  fun number hnumber =>
    (hcompares number hnumber).of_keeps hkeeps (haddressable.slot_mem hnumber hmem)

theorem Running.of_keeps (hrunning : Running limit caller callee before offset session)
    (hlayout : Layout caller callee)
    (hhoused : after.Housed (expressions limit) [caller.region, callee.region])
    (hkeeps : session.Keeps (slotsIn [caller.region, callee.region]) after) :
    Running limit caller callee before offset after := by
  have hcallee : ∀ number < 2, callee.slot number ∈ slotsIn [caller.region, callee.region] :=
    fun number hnumber => hlayout.callee_addressable.slot_mem
      (hlayout.callee_length.symm ▸ hnumber) (by simp)
  exact
    { housed := hhoused
      compares := hrunning.compares.of_keeps hlayout.caller_addressable (by simp) hkeeps
      accumulator := hrunning.accumulator.of_keeps hkeeps (hcallee 0 Nat.zero_lt_two)
      last := hrunning.last.of_keeps hkeeps (hcallee 1 Nat.one_lt_two) }

/-- **A byte is taken in, and the collection after it runs.** -/
theorem Running.step (hlayout : Layout caller callee) (hoffset : offset < limit)
    (hrunning : Running limit caller callee before offset machine.session) :
    ComesOut limit (step caller callee machine offset) fun after =>
      Running limit caller callee before (offset + 1) after.session := by
  rw [ShadowStack.step]
  refine (hrunning.absorb hlayout hoffset).bind fun between hbetween => ?_
  obtain ⟨report?, heap, hcollect, hhoused, hkeeps⟩ := hbetween.housed.maybeCollect 0
  have hcollected := hbetween.of_keeps hlayout hhoused hkeeps
  have hcollect : between.heap.maybeCollect between.memory 0 = .ok (report?, heap) := hcollect
  rw [hcollect]
  cases report? with
  | none => exact comesOut_ok hcollected
  | some report =>
      -- the note in the journal is no concern of the slots
      exact comesOut_ok (hcollected.of_keeps hlayout (hcollected.housed.note _)
        ⟨rfl, fun _ _ _ _ _ hdenotes => hdenotes⟩)

/-- **All bytes of an input are taken in.** -/
theorem Running.foldlM_step (hlayout : Layout caller callee) (hlength : length ≤ limit)
    (hrunning : Running limit caller callee before 0 machine.session) :
    ComesOut limit ((List.range length).foldlM (ShadowStack.step caller callee) machine)
      fun after => Running limit caller callee before length after.session := by
  induction length with
  | zero => exact comesOut_ok hrunning
  | succ length ih =>
      rw [List.range_succ, List.foldlM_append]
      refine (ih (Nat.le_of_succ_le hlength)).bind fun between hbetween => ?_
      rw [List.foldlM_cons]
      exact (hbetween.step hlayout hlength).bind fun after hafter => comesOut_ok hafter

/-- Since each byte is in the accumulator, there are no more of them than handles can tell apart. -/
theorem Running.length_le
    (hrunning : Running limit caller callee before length session) :
    length ≤ Handle.indexBound := by
  obtain ⟨_, hcoherent⟩ := hrunning.housed.sound.coherent
  have hsize := hcoherent.size_add_vacant
  have hissued := hcoherent.issued_le
  cases length with
  | zero => exact Nat.zero_le _
  | succ last =>
      obtain ⟨_, -, hdenotes⟩ := hrunning.accumulator
      have hlast := lt_size_of_accumulated hcoherent hdenotes
      omega

/-- What holds between two calls. -/
structure Resting (limit : Nat) (caller : Frame) (held : Nat → Option Nat) (session : Session) :
    Prop where
  housed : session.Housed (expressions limit) [caller.region]
  compares : Compares caller held session

/-- **A checksum is computed**, and the slots of the caller's hold the comparisons of its input,
where that has any for them. -/
theorem Resting.checksum (hresting : Resting limit caller before machine.session) {base : UInt64}
    (hlayout : Layout caller ⟨base, 2⟩) (hlength : length ≤ limit) :
    ComesOut limit (checksum machine caller base length) fun after =>
      Resting limit caller (heldAfter caller.length before length) after.session ∧
        length ≤ Handle.indexBound := by
  have hne : caller.region.range ≠ (⟨base, 2⟩ : Frame).region.range :=
    hlayout.apart.range_ne hlayout.caller_length two_ne_zero
  obtain ⟨started, hpush, hhoused, harena, hmemory⟩ := Frame.push_ok hresting.housed
    (List.nodup_singleton _) hlayout.callee_addressable two_ne_zero (by simpa using hne)
  -- the frame that is pushed starts with null slots, and none of them is a slot of the caller
  have hnull : ∀ number < 2, started.session.Holds ((⟨base, 2⟩ : Frame).slot number) none := by
    intro number hnumber
    show started.memory.read _ = 0
    rw [hmemory, Memory.read_fill, if_pos ⟨number, hnumber, rfl⟩]
  have hstart : Running limit caller ⟨base, 2⟩ before 0 started.session := by
    refine ⟨hhoused, fun number hnumber => ?_, hnull 0 Nat.zero_lt_two, hnull 1 Nat.one_lt_two⟩
    refine (hresting.compares number hnumber).mono (harena ▸ Arena.Extends.refl _) ?_
    show started.memory.read _ = machine.memory.read _
    rw [hmemory, Memory.read_fill, if_neg]
    rintro ⟨other, hother, hsame⟩
    exact hlayout.apart.slot_ne hlayout.caller_addressable hlayout.callee_addressable hnumber
      hother hsame.symm
  rw [ShadowStack.checksum, hpush]
  show ComesOut limit ((List.range length).foldlM (ShadowStack.step caller ⟨base, 2⟩) started >>=
    fun final => .ok ((⟨base, 2⟩ : Frame).pop final)) _
  refine (hstart.foldlM_step hlayout hlength).bind fun final hfinal =>
    comesOut_ok ⟨⟨?_, ?_⟩, hfinal.length_le⟩
  · have hpopped := Frame.housed_pop ⟨base, 2⟩ hfinal.housed (by simpa using hne)
    rwa [withdraw, if_neg hne, withdraw, if_pos rfl] at hpopped
  · exact hfinal.compares.mono (Arena.Extends.refl _) rfl

/-! ### Runs -/

/-- What a program does with the frame of a caller: to have the checksum of an input of so many
bytes computed in a frame at `base`, or to collect. -/
inductive Move where
  | checksum (base : UInt64) (length : Nat)
  | collect (elapsed : UInt64)

namespace Move

/-- The length of the input that is passed. -/
def length? : Move → Option Nat
  | .checksum _ length => some length
  | .collect _ => none

/-- The input is not too long, and the frame of the callee's can be where it is. -/
def Admissible (limit : Nat) (caller : Frame) : Move → Prop
  | .checksum base length =>
    length ≤ limit ∧ (⟨base, 2⟩ : Frame).Addressable ∧ caller.Apart ⟨base, 2⟩
  | .collect _ => True

instance (limit : Nat) (caller : Frame) (move : Move) :
    Decidable (move.Admissible limit caller) :=
  match move with
  | .checksum _ _ => inferInstanceAs (Decidable (_ ∧ _ ∧ _))
  | .collect _ => inferInstanceAs (Decidable True)

/-- Makes a move. -/
def run (caller : Frame) (machine : Machine) : Move → Except Fault Machine
  | .checksum base length => ShadowStack.checksum machine caller base length
  | .collect elapsed =>
    (machine.heap.collect machine.memory elapsed).map fun (_, heap) =>
      { machine with heap := heap }

end Move

/-- What holds after a move that comes out right. -/
structure Moved (limit : Nat) (caller : Frame) (held : Nat → Option Nat) (lengths : List Nat)
    (after : Machine) : Prop where
  resting : Resting limit caller (lengths.foldl (heldAfter caller.length) held) after.session
  lengths_le : ∀ length ∈ lengths, length ≤ Handle.indexBound

theorem Resting.run (hresting : Resting limit caller held machine.session)
    (haddressable : caller.Addressable) (hlength : caller.length ≠ 0) {move : Move}
    (hmove : move.Admissible limit caller) :
    ComesOut limit (move.run caller machine) (Moved limit caller held move.length?.toList) := by
  cases move with
  | checksum base length =>
      obtain ⟨hlimit, hcallee, hapart⟩ := hmove
      refine (hresting.checksum ⟨haddressable, hlength, hcallee, rfl, hapart⟩ hlimit).mono ?_
      rintro after ⟨hafter, hfits⟩
      exact ⟨hafter, by simpa [Move.length?] using hfits⟩
  | collect elapsed =>
      obtain ⟨report, heap, hcollect, hhoused, hcollected⟩ := hresting.housed.collect elapsed
      refine .inl ⟨{ machine with heap := heap }, congrArg (Except.map _) hcollect, ?_⟩
      exact ⟨⟨hhoused, hresting.compares.of_keeps haddressable (by simp)
        (hresting.housed.keeps hcollected)⟩, by simp [Move.length?]⟩

end

end ExprHeap.ShadowStack
