import ExprHeap.Proofs.Accounting
import ExprHeap.Proofs.Batching
import ExprHeap.Proofs.Rounding

/-!
# When a collection is due

A conditional collection is meant to run when the store has reached its threshold and has grown by
the ratio since the last collection, which is an inequality between exact numbers (`Heap.Grown`).
What decides is another number: the size after the last collection taken as a single, multiplied
in single precision and cut down to an integer.

Both roundings together move the product by a factor between `(1 - 2⁻²⁴)²` and `(1 + 2⁻²⁴)²`
(`exists_growthTrigger`), and cutting it down takes less than one node off.  In small stores the
roundings do not cross an integer, so nothing is left but the cut (`exists_growthTrigger_small`):
a collection can then come one node early, and only if the product is no integer
(`Session.collects_once_grown`, `Session.collects_before_grown`).
-/

namespace ExprHeap

open Ieee

/-! ### The trigger -/

/-- The largest relative error of one rounding to a single. -/
def roundingError : Rat := 1 / 2 ^ 24

theorem cast_leading_single : (2 * single.leading : Rat) = 2 ^ 24 := by
  have hleading : single.leading = 2 ^ 23 := by decide
  rw [hleading]
  norm_num

/-- One rounding changes a number by so large a part of it. -/
theorem rounds_bounds {exact rounded : Rat} (hrounds : single.Rounds exact rounded) :
    exact * (1 - roundingError) ≤ rounded ∧ rounded ≤ exact * (1 + roundingError) := by
  have herror := hrounds.error
  rw [cast_leading_single, ← le_div_iff₀ (by norm_num), abs_le] at herror
  unfold roundingError
  constructor
  · linarith [herror.1]
  · linarith [herror.2]

section Trigger

variable {config : Config} {ratio : Rat} {previousSize : Nat}
  (hratio : config.growthRatio.value? = some ratio) (hone : 1 ≤ ratio)

include hratio hone

/-- **The trigger is the integer part of a product that has been rounded twice.** -/
theorem exists_rounds_trigger (previousSize : Nat) : ∃ count product : Rat,
    single.Rounds previousSize count ∧ single.Rounds (count * ratio) product ∧
      growthTrigger config previousSize = min ⌊product⌋₊ (2 ^ 64 - 1) := by
  obtain ⟨count, hcount, hreads⟩ := Single.exists_rounds_ofCount previousSize
  -- a count that is not zero rounds to one at least, so its product is no subnormal number
  have hnormal : count = 0 ∨ 1 ≤ count := by
    rcases Nat.eq_zero_or_pos previousSize with rfl | hpos
    · have hupper := hcount.upper 0 (Nat.zero_le _) (le_of_eq Nat.cast_zero)
      have hlower := hcount.lower 0 (Nat.zero_le _) (le_of_eq Nat.cast_zero)
      exact .inl (by exact_mod_cast hupper.antisymm hlower)
    · have hlower := hcount.lower 1 (by decide) (by exact_mod_cast hpos)
      exact .inr (by exact_mod_cast hlower)
  obtain ⟨product, hproduct, hmul⟩ := hreads.exists_rounds_mul hnormal hratio hone
  exact ⟨count, product, hcount, hproduct, hmul.toCount_eq (by decide)⟩

/-- The trigger is the integer part of a number close to the exact product. -/
theorem exists_growthTrigger (previousSize : Nat) : ∃ product : Rat,
    previousSize * ratio * (1 - roundingError) ^ 2 ≤ product ∧
      product ≤ previousSize * ratio * (1 + roundingError) ^ 2 ∧
      growthTrigger config previousSize = min ⌊product⌋₊ (2 ^ 64 - 1) := by
  obtain ⟨count, product, hcount, hproduct, htrigger⟩ :=
    exists_rounds_trigger hratio hone previousSize
  obtain ⟨hcountLow, hcountHigh⟩ := rounds_bounds hcount
  obtain ⟨hproductLow, hproductHigh⟩ := rounds_bounds hproduct
  have hless : 0 ≤ 1 - roundingError := by norm_num [roundingError]
  have hmore : 0 ≤ 1 + roundingError := by norm_num [roundingError]
  have hnonneg : 0 ≤ ratio := zero_le_one.trans hone
  -- one error for the size and one for the product
  refine ⟨product, ?_, ?_, htrigger⟩
  · calc (previousSize : Rat) * ratio * (1 - roundingError) ^ 2
        = previousSize * (1 - roundingError) * ratio * (1 - roundingError) := by ring
      _ ≤ count * ratio * (1 - roundingError) :=
        mul_le_mul_of_nonneg_right (mul_le_mul_of_nonneg_right hcountLow hnonneg) hless
      _ ≤ product := hproductLow
  · calc product ≤ count * ratio * (1 + roundingError) := hproductHigh
      _ ≤ previousSize * (1 + roundingError) * ratio * (1 + roundingError) :=
        mul_le_mul_of_nonneg_right (mul_le_mul_of_nonneg_right hcountHigh hnonneg) hmore
      _ = previousSize * ratio * (1 + roundingError) ^ 2 := by ring

/-- After a small store only the product is rounded, and no integer of 24 bits is crossed. -/
theorem exists_growthTrigger_small (hsmall : previousSize ≤ 2 ^ 24) : ∃ product : Rat,
    (∀ size : Nat, size ≤ 2 ^ 24 → (size : Rat) ≤ previousSize * ratio → size ≤ product) ∧
      (∀ size : Nat, size ≤ 2 ^ 24 → previousSize * ratio ≤ size → product ≤ size) ∧
      growthTrigger config previousSize = min ⌊product⌋₊ (2 ^ 64 - 1) := by
  have hcounts : 2 * single.leading = 2 ^ 24 := by decide
  obtain ⟨count, product, hcount, hproduct, htrigger⟩ :=
    exists_rounds_trigger hratio hone previousSize
  -- a size up to `2 ^ 24` is a number of single precision, so it is not rounded
  obtain rfl : count = previousSize :=
    (hcount.upper previousSize (hcounts ▸ hsmall) le_rfl).antisymm
      (hcount.lower previousSize (hcounts ▸ hsmall) le_rfl)
  exact ⟨product, fun size hsize => hproduct.lower size (hcounts ▸ hsize),
    fun size hsize => hproduct.upper size (hcounts ▸ hsize), htrigger⟩

end Trigger

namespace Heap

variable {heap : Heap}

/-- The store has reached the threshold, and the size to which the ratio lets it grow. -/
def Grown (heap : Heap) (ratio : Rat) : Prop :=
  heap.config.collectThreshold ≤ heap.size ∧ heap.metrics.previousSize * ratio ≤ heap.size

/-- In a store whose size fits a machine word, the trigger is compared as if it were never cut
down to one. -/
theorem collectionDue_iff {product : Rat} (hsize : heap.size < 2 ^ 64 - 1)
    (htrigger : growthTrigger heap.config heap.metrics.previousSize =
      min ⌊product⌋₊ (2 ^ 64 - 1)) :
    heap.collectionDue = true ↔
      heap.config.collectThreshold ≤ heap.size ∧ product < heap.size + 1 := by
  have hfloor : ⌊product⌋₊ ≤ heap.size ↔ product < heap.size + 1 := by
    rw [← Nat.lt_succ_iff, Nat.floor_lt' (Nat.succ_ne_zero _), Nat.cast_succ]
  rw [collectionDue, htrigger, decide_eq_true_iff, max_le_iff, min_le_iff, ← hfloor]
  refine and_congr_right fun _ => ⟨fun hle => hle.resolve_right ?_, .inl⟩
  omega

end Heap

namespace Session

variable {config : Config} {session : Session} {ratio : Rat}

/-! ### Conditional collections -/

/-- A conditional collection runs. -/
def Collects (session : Session) (elapsed : UInt64) : Prop :=
  ∃ report heap, session.heap.maybeCollect session.memory elapsed = .ok (some report, heap)

theorem Orderly.run (horderly : session.Orderly config) {clock : Nat → UInt64} {turns : List Turn}
    {replies : List Reply} {final : Session}
    (hrun : Session.run clock session turns = .ok (replies, final)) : final.Orderly config := by
  obtain ⟨_, _, _, _, hsame, -, -, -, hfinal⟩ := horderly.run_alike horderly rfl clock clock turns
  obtain ⟨-, rfl⟩ := Prod.mk.inj (Except.ok.inj (hsame.symm.trans hrun))
  exact hfinal

theorem Orderly.heap_size_le (horderly : session.Orderly config) :
    session.heap.size ≤ 2 ^ 32 := by
  have hsplit := Arena.Coherent.size_add_vacant horderly.whole
  have hissued : session.arena.table.size ≤ 2 ^ 32 := horderly.size_le
  have hsize : session.heap.size = session.arena.size := rfl
  omega

/-- **A collection runs if it is due, and otherwise nothing happens.** -/
theorem Orderly.collects_iff (horderly : session.Orderly config) (elapsed : UInt64) :
    (session.Collects elapsed ↔ session.heap.collectionDue = true) ∧
      (¬ session.Collects elapsed →
        session.heap.maybeCollect session.memory elapsed = .ok (none, session.heap)) := by
  have hdue : session.heap.collectionDue = true → session.Collects elapsed := fun hdue => by
    obtain ⟨report, final, hcollect, -⟩ := horderly.rest.collect [] [] elapsed
    rw [collect_nil_nil] at hcollect
    cases hheap : session.heap.collect session.memory elapsed with
    | error fault => rw [hheap] at hcollect; cases hcollect
    | ok answer =>
        refine ⟨answer.1, answer.2, ?_⟩
        rw [Heap.maybeCollect, if_pos hdue, hheap]
        rfl
  have hidle : ¬ session.heap.collectionDue = true →
      session.heap.maybeCollect session.memory elapsed = .ok (none, session.heap) :=
    fun hnot => if_neg hnot
  refine ⟨⟨fun hcollects => ?_, hdue⟩, fun hnot => hidle (mt hdue hnot)⟩
  by_contra hnot
  obtain ⟨report, heap, hanswer⟩ := hcollects
  rw [hidle hnot] at hanswer
  cases hanswer

/-- **When a conditional collection runs.**  Whatever has happened, with a finite growth ratio that
is at least one: if no collection runs, the answer says so and nothing is changed.  A collection
that runs finds the store at its threshold, and grown by the ratio but for less than one node and
two roundings; and one runs whenever the store has reached its threshold and has grown by the ratio
and two roundings.  Up to 24 bits the roundings do not matter: a collection runs whenever it is due,
and otherwise only if the growth is short of the exact product by less than one node.  If the
product is an integer, it runs exactly if it is due. -/
theorem collects_once_grown {memory : Memory} {clock : Nat → UInt64} {turns : List Turn}
    {replies : List Reply}
    (hrun : Session.run clock ⟨.empty config, memory⟩ turns = .ok (replies, session))
    (hratio : config.growthRatio.value? = some ratio) (hone : 1 ≤ ratio) (elapsed : UInt64) :
    let heap := session.heap
    let product := heap.metrics.previousSize * ratio
    (¬ session.Collects elapsed → heap.maybeCollect session.memory elapsed = .ok (none, heap)) ∧
    (session.Collects elapsed → config.collectThreshold ≤ heap.size ∧
      product * (1 - roundingError) ^ 2 < heap.size + 1) ∧
    (config.collectThreshold ≤ heap.size → product * (1 + roundingError) ^ 2 ≤ heap.size →
      session.Collects elapsed) ∧
    (heap.metrics.previousSize ≤ 2 ^ 24 → heap.size < 2 ^ 24 →
      (heap.Grown ratio → session.Collects elapsed) ∧
      (session.Collects elapsed → config.collectThreshold ≤ heap.size ∧ product < heap.size + 1) ∧
      ∀ goal : Nat, product = goal → (session.Collects elapsed ↔ heap.Grown ratio)) := by
  intro heap product
  have horderly : session.Orderly config := (orderly_start config memory).run hrun
  have hconfig : heap.config = config := horderly.config_eq
  have hsize : heap.size < 2 ^ 64 - 1 := horderly.heap_size_le.trans_lt (by norm_num)
  obtain ⟨hdue, hidle⟩ := horderly.collects_iff elapsed
  refine ⟨hidle, ?_, ?_, ?_⟩
  · intro hcollects
    obtain ⟨rounded, hlow, -, htrigger⟩ :=
      exists_growthTrigger hratio hone heap.metrics.previousSize
    rw [← hconfig] at htrigger ⊢
    obtain ⟨hthreshold, hlt⟩ := (Heap.collectionDue_iff hsize htrigger).mp (hdue.mp hcollects)
    exact ⟨hthreshold, hlow.trans_lt hlt⟩
  · intro hthreshold hproduct
    obtain ⟨rounded, -, hhigh, htrigger⟩ :=
      exists_growthTrigger hratio hone heap.metrics.previousSize
    rw [← hconfig] at htrigger hthreshold
    exact hdue.mpr ((Heap.collectionDue_iff hsize htrigger).mpr
      ⟨hthreshold, (hhigh.trans hproduct).trans_lt (lt_add_one _)⟩)
  · intro hsmall hfits
    obtain ⟨rounded, hlower, hupper, htrigger⟩ := exists_growthTrigger_small hratio hone hsmall
    rw [← hconfig] at htrigger ⊢
    -- a size that can be told exactly is compared with the rounded product as with the exact one
    have hgrown : heap.Grown ratio → session.Collects elapsed := fun ⟨hthreshold, hproduct⟩ =>
      hdue.mpr ((Heap.collectionDue_iff hsize htrigger).mpr
        ⟨hthreshold, (hupper heap.size hfits.le hproduct).trans_lt (lt_add_one _)⟩)
    have hcollects : session.Collects elapsed →
        heap.config.collectThreshold ≤ heap.size ∧ product < heap.size + 1 := fun hcollects => by
      obtain ⟨hthreshold, hlt⟩ := (Heap.collectionDue_iff hsize htrigger).mp (hdue.mp hcollects)
      refine ⟨hthreshold, not_le.mp fun hle => hlt.not_ge ?_⟩
      exact_mod_cast hlower (heap.size + 1) hfits (by exact_mod_cast hle)
    refine ⟨hgrown, hcollects, fun goal hgoal => ⟨fun hruns => ?_, hgrown⟩⟩
    obtain ⟨hthreshold, hlt⟩ := hcollects hruns
    have hle : goal ≤ heap.size := Nat.lt_succ_iff.mp (by exact_mod_cast hgoal ▸ hlt)
    have hproduct : product ≤ heap.size := by
      rw [hgoal]
      exact_mod_cast hle
    exact ⟨hthreshold, hproduct⟩

/-! ### A collection before the store has grown -/

/-- A store may grow by one half, from the first node on. -/
def byOneHalf : Config := { Config.default with collectThreshold := 1, growthRatio := ⟨0x3FC00000⟩ }

theorem value?_byOneHalf : byOneHalf.growthRatio.value? = some (3 / 2) := by
  have hdatum : byOneHalf.growthRatio.datum = .finite false 0xC00000 (-23) := by decide
  rw [Single.value?, hdatum]
  norm_num [Datum.value?]

/-- One collection, with one node built before its sweep. -/
def buildsInCollection : List Turn := [.collect [] [.build (.input 0)]]

/-- The collection when its sweep begins: nothing has been found live, and the node is there. -/
def oneNodeBuilt : Answer × Session :=
  let begun : Session := .begun ⟨.empty byOneHalf, .zeroed⟩
  answer { begun with heap := begun.heap.settle.note [.scanned ⟨0, 0, 0, 0, 0⟩] }
    (.build (.input 0))

/-- What the collection leaves. -/
def oneNodeLeft : Except Fault (Reply × Session) :=
  oneNodeBuilt.2.finish (Heap.beginCycle (.empty byOneHalf)).1 .empty ⟨0, 0, 0, 0, 0⟩ []
    [oneNodeBuilt.1] 0

theorem take_buildsInCollection :
    take ⟨.empty byOneHalf, .zeroed⟩ 0 (.collect [] [.build (.input 0)]) = oneNodeLeft := by
  let begun := Session.begun ⟨.empty byOneHalf, .zeroed⟩
  have hread : RootScan.ofRegions begun.heap.store.arena begun.memory begun.heap.config.scanChunk
      begun.heap.snapshotRegions = .ok .empty := rfl
  have hclose : RootScan.empty.marking.close begun.heap.store.arena begun.heap.config.scanChunk 0 =
      .ok .empty := Marking.close_of_passed (Nat.le_refl 0)
  have hfinish := RootScan.finish_of_close hclose
  exact bind_eq_of_ok (Heap.scan_of_read hread hfinish) _

theorem exists_oneNodeLeft : ∃ replies session,
    run (fun _ => 0) ⟨.empty byOneHalf, .zeroed⟩ buildsInCollection = .ok (replies, session) ∧
      session.heap.size = 1 ∧ session.heap.metrics.previousSize = 1 := by
  have hlive : ∀ handle ∈ LiveSet.empty.toList, (oneNodeBuilt.2.arena.reclaimAll
      (Heap.beginCycle (.empty byOneHalf)).1.epoch LiveSet.empty.contains (List.range' 0
        (Heap.beginCycle (.empty byOneHalf)).1.highWater)).contains handle = true := by
    have hnone : LiveSet.empty.toList = [] := rfl
    simp [hnone]
  obtain ⟨report, heap, hfinish, harena, -⟩ := oneNodeBuilt.2.heap.finishCycle_ok
    (Heap.beginCycle (.empty byOneHalf)).1 ⟨0, 0, 0, 0, 0⟩ 0 hlive
  have hfinished := Heap.finished_of_finishCycle hfinish
  -- nothing is live and nothing was there at the beginning, so the node born since is what is left
  have hsize : heap.store.size = 1 := by
    rw [Store.size, harena]
    dsimp only [oneNodeBuilt, answer]
    cbv
  have hprevious : heap.metrics.previousSize = 1 := by
    rw [hfinished.metrics_eq, ← hsize, ← hfinished.remaining_eq]
    rfl
  have hleft : oneNodeLeft = .ok (.collected [] [oneNodeBuilt.1] report,
      { oneNodeBuilt.2 with heap := heap }) := by
    rw [oneNodeLeft, Session.finish, hfinish]
    rfl
  exact ⟨_, _, run_cons (take_buildsInCollection.trans hleft) rfl, hsize, hprevious⟩

/-- After a collection that has left one node the next one runs at once, although the store has not
grown by one half. -/
theorem collects_before_grown : ∃ replies session report after,
    run (fun _ => 0) ⟨.empty byOneHalf, .zeroed⟩ buildsInCollection = .ok (replies, session) ∧
      byOneHalf.growthRatio.value? = some (3 / 2) ∧
      session.heap.maybeCollect session.memory 0 = .ok (some report, after) ∧
      ¬ session.heap.Grown (3 / 2) := by
  obtain ⟨replies, session, hrun, hsize, hprevious⟩ := exists_oneNodeLeft
  have horderly : session.Orderly byOneHalf := (orderly_start byOneHalf .zeroed).run hrun
  have htrigger : growthTrigger byOneHalf 1 = 1 := by decide +kernel
  have hdue : session.heap.collectionDue = true := by
    rw [Heap.collectionDue, hsize, hprevious, horderly.config_eq, htrigger]
    rfl
  obtain ⟨report, after, hcollects⟩ := (horderly.collects_iff 0).1.mpr hdue
  refine ⟨replies, session, report, after, hrun, value?_byOneHalf, hcollects, fun hgrown => ?_⟩
  have hproduct := hgrown.2
  rw [hsize, hprevious] at hproduct
  norm_num at hproduct

/-- What holds after that collection: the next one changes nothing, or it finds a store that is
short of one and a half nodes by less than one. -/
theorem collects_after_one_node : ∃ replies session,
    run (fun _ => 0) ⟨.empty byOneHalf, .zeroed⟩ buildsInCollection = .ok (replies, session) ∧
      session.heap.metrics.previousSize = 1 ∧
      byOneHalf.growthRatio.value? = some (3 / 2) ∧ (1 : Rat) ≤ 3 / 2 ∧
      (¬ session.Collects 0 →
        session.heap.maybeCollect session.memory 0 = .ok (none, session.heap)) ∧
      (session.Collects 0 → byOneHalf.collectThreshold ≤ session.heap.size ∧
        (3 / 2 : Rat) < session.heap.size + 1) := by
  obtain ⟨replies, session, hrun, hsize, hprevious⟩ := exists_oneNodeLeft
  have hone : (1 : Rat) ≤ 3 / 2 := by norm_num
  obtain ⟨hidle, -, -, hsmall⟩ := collects_once_grown hrun value?_byOneHalf hone 0
  obtain ⟨-, hcollects, -⟩ := hsmall (by rw [hprevious]; norm_num) (by rw [hsize]; norm_num)
  rw [hprevious, Nat.cast_one, one_mul] at hcollects
  exact ⟨replies, session, hrun, hprevious, value?_byOneHalf, hone, hidle, hcollects⟩

end Session

end ExprHeap
