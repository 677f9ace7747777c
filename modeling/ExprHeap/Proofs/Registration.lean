import ExprHeap.Region.Registry
import Mathlib.Algebra.Group.Nat.Defs
import Mathlib.Data.List.Nodup

/-!
# The registry and a table that is kept directly

Requests to the registry wait in a queue until somebody asks for the regions, for however long
and through however many requests.  Nobody can tell: a table to which every request is applied at
once gives the same answers (`Registry.refines_direct_table`).

The direct table is also told range by range.  A range *stands* from the call that first
registers it after it was last removed, in the kind that it was last registered in; the table
holds the ranges that stand, each once, in the order of these calls (`Standing`).

## Strategy

What a registry would answer if it were asked for its regions now, `Registry.table`, is kept by
settling and changed by every other call as the direct table is.  The queue is settled with a
filter and a map over the whole table, the direct table changes its first match; the two agree as
long as no range is in the table twice, which every request keeps.
-/

namespace ExprHeap

/-! ### Calls and answers -/

/-- The answers to calls that are made one after the other, and the state that they leave. -/
def converse {State Call Answer : Type} (answer : State → Call → Answer × State) (state : State) :
    List Call → List Answer × State
  | [] => ([], state)
  | call :: rest =>
    ((answer state call).1 :: (converse answer (answer state call).2 rest).1,
      (converse answer (answer state call).2 rest).2)

/-- A call of the registry. -/
inductive RegistryCall where
  | register (base length : UInt64) (kind : RegionKind)
  | unregister (base length : UInt64)
  | regions
  | count
  | clear

/-- What the registry answers. -/
inductive RegistryAnswer where
  | accepted
  | rejected (error : HeapError)
  | done
  | regions (regions : List Region)
  | count (count : Nat)

/-- Whether a call changes the table; the other calls ask for it. -/
def RegistryCall.isChange : RegistryCall → Bool
  | .register _ _ _ => true
  | .unregister _ _ => true
  | .regions => false
  | .count => false
  | .clear => true

/-- A call, answered by the registry. -/
def Registry.answer (registry : Registry) : RegistryCall → RegistryAnswer × Registry
  | .register base length kind =>
    match registry.register base length kind with
    | .ok registry => (.accepted, registry)
    | .error error => (.rejected error, registry)
  | .unregister base length => (.done, registry.unregister base length)
  | .regions => (.regions registry.settle.2.regions, registry.settle.2)
  | .count => (.count registry.settle.2.regions.length, registry.settle.2)
  | .clear => (.count registry.clear.1, registry.clear.2)

/-! ### The direct table -/

/-- The row of slots of a region, by which a table tells its regions apart. -/
def Region.range (region : Region) : UInt64 × UInt64 := (region.base, region.length)

/-- A row of slots starts at an aligned address other than null, and the address after it is one
of 64 bits too. -/
def Placeable (base length : UInt64) : Prop :=
  base ≠ 0 ∧ 8 ∣ base.toNat ∧ base.toNat + 8 * length.toNat ≤ 2 ^ 64 - 1

instance (base length : UInt64) : Decidable (Placeable base length) :=
  inferInstanceAs (Decidable (_ ∧ _ ∧ _))

/-- Registers a region at once.  A range that is there takes the kind in its place, a new range
goes to the end. -/
def enter (region : Region) : List Region → List Region
  | [] => [region]
  | known :: rest =>
    if known.range = region.range then { known with kind := region.kind } :: rest
    else known :: enter region rest

/-- Takes the region with a range out at once. -/
def withdraw (range : UInt64 × UInt64) : List Region → List Region
  | [] => []
  | known :: rest => if known.range = range then rest else known :: withdraw range rest

/-- A call, answered by a table that every call is applied to at once. -/
def directAnswer (table : List Region) : RegistryCall → RegistryAnswer × List Region
  | .register base length kind =>
    if length = 0 then (.accepted, table)
    else if Placeable base length then (.accepted, enter ⟨base, length, kind⟩ table)
    else (.rejected (.misalignedRegion base), table)
  | .unregister base length => (.done, withdraw (base, length) table)
  | .regions => (.regions table, table)
  | .count => (.count table.length, table)
  | .clear => (.count table.length, [])

/-! ### Ranges that stand -/

/-- Since which call a range stands in the table, and in which kind. -/
structure Standing where
  since : Nat
  kind : RegionKind

/-- How a range stands after the call with this number. -/
def standingAfter (number : Nat) (range : UInt64 × UInt64) (standing : Option Standing) :
    RegistryCall → Option Standing
  | .register base length kind =>
    if (base, length) = range ∧ length ≠ 0 ∧ Placeable base length then
      some { since := (standing.map Standing.since).getD number, kind := kind }
    else standing
  | .unregister base length => if (base, length) = range then none else standing
  | .regions => standing
  | .count => standing
  | .clear => none

/-- How a range stands after calls that are numbered from `number` on. -/
def standingFrom (number : Nat) (range : UInt64 × UInt64) (standing : Option Standing) :
    List RegistryCall → Option Standing
  | [] => standing
  | call :: rest =>
    standingFrom (number + 1) range (standingAfter number range standing call) rest

/-- How a range stands after calls to an empty table. -/
def standing (calls : List RegistryCall) (range : UInt64 × UInt64) : Option Standing :=
  standingFrom 0 range none calls

/-! ### What the registry accepts -/

theorem Region.isAddressable_iff (base length : UInt64) :
    Region.isAddressable base length = true ↔ Placeable base length := by
  have hmod : base % 8 = 0 ↔ 8 ∣ base.toNat := by
    rw [← UInt64.toNat_inj, UInt64.toNat_mod, Nat.dvd_iff_mod_eq_zero]
    rfl
  have hbound : base.toNat + 8 * length.toNat < UInt64.size ↔
      base.toNat + 8 * length.toNat ≤ 2 ^ 64 - 1 := Nat.lt_succ_iff
  simp only [isAddressable, Placeable, Bool.and_eq_true, bne_iff_ne, ne_eq, beq_iff_eq,
    decide_eq_true_eq, hmod, hbound, and_assoc]

/-- **A range is accepted if it has no slots or all its slots can be addressed.** -/
theorem Registry.register_eq (registry : Registry) (base length : UInt64) (kind : RegionKind) :
    registry.register base length kind =
      if length = 0 then .ok registry
      else if Placeable base length then
        .ok { registry with queue := registry.queue ++ [.register ⟨base, length, kind⟩] }
      else .error (.misalignedRegion base) := by
  unfold register Region.make
  by_cases hempty : length = 0
  · simp [hempty, Region.isEmpty]
  · by_cases hplaceable : Placeable base length
    · have haddressable := (Region.isAddressable_iff base length).mpr hplaceable
      simp [hempty, hplaceable, haddressable, Region.isEmpty]
    · have haddressable := mt (Region.isAddressable_iff base length).mp hplaceable
      simp [hempty, hplaceable, haddressable]

/-! ### Tables in which no range comes twice -/

theorem Region.covers_iff (region : Region) (base length : UInt64) :
    region.covers base length = true ↔ region.range = (base, length) := by
  simp [covers, range]

variable {table : List Region} {region known : Region} {range : UInt64 × UInt64}

theorem enter_of_new (hnew : ∀ known ∈ table, known.range ≠ region.range) :
    enter region table = table ++ [region] := by
  induction table with
  | nil => rfl
  | cons first rest ih =>
      rw [enter, if_neg (hnew first List.mem_cons_self),
        ih fun known hknown => hnew known (List.mem_cons_of_mem _ hknown)]
      rfl

theorem map_range_enter_of_known (hknown : ∃ known ∈ table, known.range = region.range) :
    (enter region table).map Region.range = table.map Region.range := by
  induction table with
  | nil => simp at hknown
  | cons first rest ih =>
      rw [enter]
      split
      · rfl
      · rename_i hfirst
        obtain ⟨known, hmem, hrange⟩ := hknown
        rcases List.mem_cons.mp hmem with rfl | hrest
        · exact absurd hrange hfirst
        · rw [List.map_cons, ih ⟨known, hrest, hrange⟩, List.map_cons]

theorem withdraw_of_absent (habsent : ∀ known ∈ table, known.range ≠ range) :
    withdraw range table = table := by
  induction table with
  | nil => rfl
  | cons first rest ih =>
      rw [withdraw, if_neg (habsent first List.mem_cons_self),
        ih fun known hknown => habsent known (List.mem_cons_of_mem _ hknown)]

theorem withdraw_sublist (range : UInt64 × UInt64) (table : List Region) :
    (withdraw range table).Sublist table := by
  induction table with
  | nil => exact .slnil
  | cons first rest ih =>
      rw [withdraw]
      split
      · exact List.sublist_cons_self _ _
      · exact ih.cons_cons first

/-- The rest of a table without doubles does not hold the range of its head. -/
theorem range_ne_of_mem_rest {first : Region} {rest : List Region}
    (hdistinct : ((first :: rest).map Region.range).Nodup) :
    ∀ known ∈ rest, known.range ≠ first.range := by
  rintro known hknown hsame
  rw [List.map_cons, List.nodup_cons] at hdistinct
  exact hdistinct.1 (hsame ▸ List.mem_map_of_mem hknown)

/-- Taking out the first match is taking out all matches. -/
theorem withdraw_eq_filter (hdistinct : (table.map Region.range).Nodup) :
    withdraw range table = table.filter (·.range ≠ range) := by
  induction table with
  | nil => rfl
  | cons first rest ih =>
      have hrest := ih (List.nodup_cons.mp hdistinct).2
      by_cases hfirst : first.range = range
      · have hothers := range_ne_of_mem_rest hdistinct
        rw [withdraw, if_pos hfirst, List.filter_cons_of_neg (by simpa using hfirst),
          ← hrest, withdraw_of_absent (hfirst ▸ hothers)]
      · rw [withdraw, if_neg hfirst, List.filter_cons_of_pos (by simpa using hfirst), hrest]

/-- Changing the kind of the first match is changing the kind of all matches. -/
theorem enter_eq_map (hdistinct : (table.map Region.range).Nodup)
    (hknown : ∃ known ∈ table, known.range = region.range) :
    enter region table = table.map fun known =>
      if known.range = region.range then { known with kind := region.kind } else known := by
  induction table with
  | nil => simp at hknown
  | cons first rest ih =>
      by_cases hfirst : first.range = region.range
      · -- the ranges differ, so past the first region of this range nothing is changed
        have hothers := range_ne_of_mem_rest hdistinct
        have hsame : rest.map (fun known =>
            if known.range = region.range then { known with kind := region.kind } else known) =
              rest := by
          conv_rhs => rw [← List.map_id rest]
          refine List.map_congr_left fun known hmem => if_neg ?_
          rw [← hfirst]
          exact hothers known hmem
        rw [enter, if_pos hfirst, List.map_cons, if_pos hfirst, hsame]
      · obtain ⟨known, hmem, hrange⟩ := hknown
        rcases List.mem_cons.mp hmem with rfl | hrest
        · exact absurd hrange hfirst
        · rw [enter, if_neg hfirst, List.map_cons, if_neg hfirst,
            ih (List.nodup_cons.mp hdistinct).2 ⟨known, hrest, hrange⟩]

theorem Region.eq_of_range_eq {first second : Region} (hrange : first.range = second.range)
    (hkind : first.kind = second.kind) : first = second := by
  obtain ⟨hbase, hlength⟩ := Prod.mk.inj hrange
  cases first
  cases second
  simp_all

theorem mem_enter_iff (hdistinct : (table.map Region.range).Nodup) :
    known ∈ enter region table ↔
      known = region ∨ known ∈ table ∧ known.range ≠ region.range := by
  -- a known range keeps its place and a new one comes last, so the two are told apart
  by_cases hknown : ∃ known ∈ table, known.range = region.range
  · rw [enter_eq_map hdistinct hknown, List.mem_map]
    constructor
    · rintro ⟨old, hold, rfl⟩
      split
      · rename_i hsame
        exact .inl (Region.eq_of_range_eq hsame rfl)
      · rename_i hother
        exact .inr ⟨hold, hother⟩
    · rintro (rfl | ⟨hmem, hother⟩)
      · obtain ⟨old, hold, hsame⟩ := hknown
        refine ⟨old, hold, ?_⟩
        rw [if_pos hsame]
        exact Region.eq_of_range_eq hsame rfl
      · exact ⟨known, hmem, if_neg hother⟩
  · have hnew : ∀ old ∈ table, old.range ≠ region.range := fun old hold hsame =>
      hknown ⟨old, hold, hsame⟩
    rw [enter_of_new hnew, List.mem_append, List.mem_singleton, or_comm]
    exact or_congr_right ⟨fun hmem => ⟨hmem, hnew known hmem⟩, And.left⟩

theorem mem_withdraw_iff (hdistinct : (table.map Region.range).Nodup) :
    known ∈ withdraw range table ↔ known ∈ table ∧ known.range ≠ range := by
  rw [withdraw_eq_filter hdistinct, List.mem_filter]
  simp

theorem distinct_enter (hdistinct : (table.map Region.range).Nodup) (region : Region) :
    ((enter region table).map Region.range).Nodup := by
  by_cases hknown : ∃ known ∈ table, known.range = region.range
  · rw [map_range_enter_of_known hknown]
    exact hdistinct
  · have hnew : ∀ old ∈ table, old.range ≠ region.range := fun old hold hsame =>
      hknown ⟨old, hold, hsame⟩
    have hnotMem : region.range ∉ table.map Region.range := by
      rintro hmem
      obtain ⟨old, hold, hsame⟩ := List.mem_map.mp hmem
      exact hnew old hold hsame
    rw [enter_of_new hnew, List.map_append]
    exact List.nodup_append.mpr ⟨hdistinct, List.nodup_singleton _,
      fun old hold new hsame => by
        rw [List.mem_singleton.mp hsame]
        exact ne_of_mem_of_not_mem hold hnotMem⟩

theorem distinct_withdraw (hdistinct : (table.map Region.range).Nodup)
    (range : UInt64 × UInt64) : ((withdraw range table).map Region.range).Nodup :=
  hdistinct.sublist ((withdraw_sublist range table).map Region.range)

theorem distinct_directAnswer (hdistinct : (table.map Region.range).Nodup) (call : RegistryCall) :
    ((directAnswer table call).2.map Region.range).Nodup := by
  cases call with
  | register base length kind =>
      unfold directAnswer
      dsimp only
      split
      · exact hdistinct
      · split
        · exact distinct_enter hdistinct _
        · exact hdistinct
  | unregister base length => exact distinct_withdraw hdistinct _
  | regions => exact hdistinct
  | count => exact hdistinct
  | clear => exact List.nodup_nil

/-! ### Settling -/

/-- Applying a request to register to a settled table is entering the region directly. -/
theorem regions_apply_register {settled : RegionTable}
    (hdistinct : (settled.regions.map Region.range).Nodup) (region : Region) :
    (settled.apply (.register region)).regions = enter region settled.regions := by
  have hcovers : ∀ known : Region,
      known.covers region.base region.length = true ↔ known.range = region.range :=
    fun known => known.covers_iff _ _
  unfold RegionTable.apply
  dsimp only
  split
  · rename_i hany
    obtain ⟨old, hold, hsame⟩ := List.any_eq_true.mp hany
    rw [enter_eq_map hdistinct ⟨old, hold, (hcovers old).mp hsame⟩]
    simp only [hcovers]
  · rename_i hany
    rw [enter_of_new]
    rintro old hold hsame
    exact hany (List.any_eq_true.mpr ⟨old, hold, (hcovers old).mpr hsame⟩)

theorem regions_apply_unregister {settled : RegionTable}
    (hdistinct : (settled.regions.map Region.range).Nodup) (base length : UInt64) :
    (settled.apply (.unregister base length)).regions =
      withdraw (base, length) settled.regions := by
  rw [withdraw_eq_filter hdistinct]
  refine List.filter_congr fun known _ => ?_
  rw [Bool.eq_iff_iff]
  simp [← Region.covers_iff]

namespace Registry

variable {registry : Registry}

/-- What the registry would answer if it were asked for its regions now. -/
def settled (registry : Registry) : List Region := registry.settle.2.regions

/-- **A registry answers as its settled table does**, and goes on to stand for what that becomes. -/
theorem answer_eq (hdistinct : (registry.settled.map Region.range).Nodup) (call : RegistryCall) :
    (registry.answer call).1 = (directAnswer registry.settled call).1 ∧
      (registry.answer call).2.settled = (directAnswer registry.settled call).2 := by
  -- a request is applied to what the queue before it makes of the table
  have hqueue : ∀ request : RegionRequest,
      ({ registry with queue := registry.queue ++ [request] } : Registry).settled =
        ((registry.queue.foldl RegionTable.apply ⟨registry.regions, []⟩).apply
          request).regions := by
    intro request
    show ((registry.queue ++ [request]).foldl RegionTable.apply ⟨registry.regions, []⟩).regions = _
    rw [List.foldl_append]
    rfl
  cases call with
  | register base length kind =>
      simp only [answer, directAnswer, register_eq]
      by_cases hempty : length = 0
      · simp only [if_pos hempty]
        exact ⟨trivial, trivial⟩
      by_cases hplaceable : Placeable base length
      · simp only [if_neg hempty, if_pos hplaceable]
        exact ⟨trivial, (hqueue _).trans (regions_apply_register hdistinct _)⟩
      · simp only [if_neg hempty, if_neg hplaceable]
        exact ⟨trivial, trivial⟩
  | unregister base length =>
      exact ⟨rfl, (hqueue _).trans (regions_apply_unregister hdistinct base length)⟩
  | regions => exact ⟨rfl, rfl⟩
  | count => exact ⟨rfl, rfl⟩
  | clear => exact ⟨rfl, rfl⟩

/-- What every registry lists that calls have led to: no range twice, and only slots that can be
addressed. -/
structure Sane (registry : Registry) : Prop where
  distinct : (registry.settled.map Region.range).Nodup
  placeable : ∀ region ∈ registry.settled, Placeable region.base region.length

theorem sane_empty : Registry.empty.Sane where
  distinct := List.nodup_nil
  placeable region hmem := by cases hmem

theorem Sane.answer (hsane : registry.Sane) (call : RegistryCall) :
    (registry.answer call).2.Sane := by
  obtain ⟨-, hsettled⟩ := answer_eq hsane.distinct call
  refine
    { distinct := hsettled ▸ distinct_directAnswer hsane.distinct call
      placeable := ?_ }
  -- a table that is placeable is made of what was there and what has passed the check
  rw [hsettled]
  intro region hregion
  cases call with
  | register base length kind =>
      simp only [directAnswer] at hregion
      split at hregion
      · exact hsane.placeable region hregion
      · split at hregion
        · rename_i hplaceable
          rcases (mem_enter_iff hsane.distinct).mp hregion with rfl | ⟨hold, -⟩
          · exact hplaceable
          · exact hsane.placeable region hold
        · exact hsane.placeable region hregion
  | unregister base length =>
      exact hsane.placeable region ((withdraw_sublist _ _).subset hregion)
  | regions => exact hsane.placeable region hregion
  | count => exact hsane.placeable region hregion
  | clear => cases hregion

/-- The answers along a run are those of the settled table. -/
theorem converse_eq (hdistinct : (registry.settled.map Region.range).Nodup)
    (calls : List RegistryCall) :
    (converse answer registry calls).1 = (converse directAnswer registry.settled calls).1 ∧
      (converse answer registry calls).2.settled =
        (converse directAnswer registry.settled calls).2 := by
  induction calls generalizing registry with
  | nil => exact ⟨rfl, rfl⟩
  | cons call rest ih =>
      obtain ⟨hfirst, hsettled⟩ := answer_eq hdistinct call
      have hnext := distinct_directAnswer hdistinct call
      rw [← hsettled] at hnext
      obtain ⟨hanswers, hfinal⟩ := ih hnext
      rw [hsettled] at hanswers hfinal
      exact ⟨congrArg₂ List.cons hfirst hanswers, hfinal⟩

end Registry

/-- Asking leaves the direct table as it is. -/
theorem converse_filter_isChange (table : List Region) (calls : List RegistryCall) :
    (converse directAnswer table (calls.filter RegistryCall.isChange)).2 =
      (converse directAnswer table calls).2 := by
  -- a call that changes nothing is passed over with the table as it is
  induction calls generalizing table with
  | nil => rfl
  | cons call rest ih =>
      cases call with
      | register base length kind => exact ih _
      | unregister base length => exact ih _
      | regions => exact ih _
      | count => exact ih _
      | clear => exact ih _

/-! ### What the table lists -/

/-- The one range stands since before the other. -/
def StandsBefore (standing : UInt64 × UInt64 → Option Standing) (earlier later : UInt64 × UInt64) :
    Prop :=
  ∀ first second, standing earlier = some first → standing later = some second →
    first.since < second.since

/-- A table lists the ranges that stand, in the order of the calls that they stand since, and
nothing but slots that can be addressed. -/
structure Lists (number : Nat) (standing : UInt64 × UInt64 → Option Standing)
    (table : List Region) : Prop where
  distinct : (table.map Region.range).Nodup
  mem_iff : ∀ region, region ∈ table ↔
    ∃ since, standing region.range = some ⟨since, region.kind⟩
  ordered : (table.map Region.range).Pairwise (StandsBefore standing)
  since_lt : ∀ range status, standing range = some status → status.since < number
  placeable : ∀ region ∈ table, region.length ≠ 0 ∧ Placeable region.base region.length

/-- What stands before and after a region is registered by the call with this number: the region
goes on standing since before, or stands since this call. -/
structure Registered (number : Nat) (region : Region)
    (before after : UInt64 × UInt64 → Option Standing) : Prop where
  same : after region.range =
    some ⟨((before region.range).map Standing.since).getD number, region.kind⟩
  other : ∀ range, range ≠ region.range → after range = before range

/-- A range stands since before, unless it is the new one. -/
theorem Registered.since_cases {number : Nat} {before after : UInt64 × UInt64 → Option Standing}
    (hregistered : Registered number region before after) {status : Standing}
    (hafter : after range = some status) :
    (∃ old, before range = some old ∧ old.since = status.since) ∨
      range = region.range ∧ before range = none ∧ status.since = number := by
  by_cases hrange : range = region.range
  · subst hrange
    rw [hregistered.same] at hafter
    obtain rfl := Option.some.inj hafter
    cases hstanding : before region.range with
    | none => exact .inr ⟨rfl, rfl, rfl⟩
    | some old => exact .inl ⟨old, rfl, rfl⟩
  · exact .inl ⟨status, (hregistered.other range hrange).symm.trans hafter, rfl⟩

namespace Lists

variable {number : Nat} {standing : UInt64 × UInt64 → Option Standing}

theorem start : Lists 0 (fun _ => none) [] where
  distinct := List.nodup_nil
  mem_iff region := by simp
  ordered := .nil
  since_lt range status hstanding := by cases hstanding
  placeable region hmem := by cases hmem

/-- A call that changes nothing. -/
theorem idle (hlists : Lists number standing table) : Lists (number + 1) standing table where
  __ := hlists
  since_lt range status hstanding := Nat.lt_succ_of_lt (hlists.since_lt range status hstanding)

/-- Without a region of a range in the table, the range does not stand. -/
theorem standing_eq_none (hlists : Lists number standing table)
    (habsent : ∀ known ∈ table, known.range ≠ range) : standing range = none := by
  cases hstanding : standing range with
  | none => rfl
  | some status =>
      have hmem : (⟨range.1, range.2, status.kind⟩ : Region) ∈ table :=
        (hlists.mem_iff _).mpr ⟨status.since, hstanding⟩
      exact absurd rfl (habsent _ hmem)

variable {after : UInt64 × UInt64 → Option Standing}

/-- A range that is known goes on standing since before, and nothing changes its place. -/
theorem ordered_of_known (hlists : Lists number standing table)
    (hregistered : Registered number region standing after)
    (hknown : ∃ known ∈ table, known.range = region.range) :
    (table.map Region.range).Pairwise (StandsBefore after) := by
  obtain ⟨known, hmem, hrange⟩ := hknown
  obtain ⟨since, hstands⟩ := (hlists.mem_iff known).mp hmem
  rw [hrange] at hstands
  -- a known range only changes its kind, and the order goes by when a range came
  have hold : ∀ range status, after range = some status →
      ∃ old, standing range = some old ∧ old.since = status.since := by
    intro range status hafter
    rcases hregistered.since_cases hafter with hbefore | ⟨hnew, hnone, -⟩
    · exact hbefore
    · rw [hnew, hstands] at hnone
      cases hnone
  refine hlists.ordered.imp fun hlt first second hfirst hsecond => ?_
  obtain ⟨old, holdStands, hfirstSince⟩ := hold _ _ hfirst
  obtain ⟨other, hotherStands, hsecondSince⟩ := hold _ _ hsecond
  calc first.since = old.since := hfirstSince.symm
    _ < other.since := hlt old other holdStands hotherStands
    _ = second.since := hsecondSince

/-- A range that is new stands since this call, after all others. -/
theorem ordered_of_new (hlists : Lists number standing table)
    (hregistered : Registered number region standing after)
    (hnew : ∀ known ∈ table, known.range ≠ region.range) :
    ((table ++ [region]).map Region.range).Pairwise (StandsBefore after) := by
  have hold : ∀ range ∈ table.map Region.range, after range = standing range := by
    intro range hrange
    obtain ⟨old, hold, rfl⟩ := List.mem_map.mp hrange
    exact hregistered.other _ (hnew old hold)
  -- the new range comes last, and its number is the largest
  rw [List.map_append, List.pairwise_append]
  refine ⟨?_, List.pairwise_singleton _ _, ?_⟩
  · refine hlists.ordered.imp_of_mem ?_
    intro earlier later hearlier hlater hlt first second hfirst hsecond
    exact hlt first second ((hold _ hearlier).symm.trans hfirst)
      ((hold _ hlater).symm.trans hsecond)
  · intro earlier hearlier later hlater first second hfirst hsecond
    rw [List.mem_singleton.mp hlater, hregistered.same, hlists.standing_eq_none hnew] at hsecond
    obtain rfl := Option.some.inj hsecond
    exact hlists.since_lt earlier first ((hold _ hearlier).symm.trans hfirst)

/-- **Entering a region keeps the table listing what stands.** -/
theorem enter (hlists : Lists number standing table)
    (hplaceable : region.length ≠ 0 ∧ Placeable region.base region.length)
    (hregistered : Registered number region standing after) :
    Lists (number + 1) after (enter region table) := by
  have hmem : ∀ known, known ∈ ExprHeap.enter region table ↔
      known = region ∨ known ∈ table ∧ known.range ≠ region.range :=
    fun known => mem_enter_iff hlists.distinct
  refine
    { distinct := distinct_enter hlists.distinct region
      mem_iff := ?_
      ordered := ?_
      since_lt := ?_
      placeable := ?_ }
  · intro known
    rw [hmem]
    by_cases hrange : known.range = region.range
    · rw [hrange, hregistered.same]
      constructor
      · rintro (rfl | ⟨-, hne⟩)
        · exact ⟨_, rfl⟩
        · exact absurd rfl hne
      · rintro ⟨since, hafter⟩
        have hkind := congrArg Standing.kind (Option.some.inj hafter)
        exact .inl (Region.eq_of_range_eq hrange hkind.symm)
    · rw [hregistered.other _ hrange, ← hlists.mem_iff]
      constructor
      · rintro (rfl | ⟨hknown, -⟩)
        · exact absurd rfl hrange
        · exact hknown
      · exact fun hknown => .inr ⟨hknown, hrange⟩
  · by_cases hknown : ∃ known ∈ table, known.range = region.range
    · rw [map_range_enter_of_known hknown]
      exact hlists.ordered_of_known hregistered hknown
    · have hnew : ∀ known ∈ table, known.range ≠ region.range := fun known hmem hsame =>
        hknown ⟨known, hmem, hsame⟩
      rw [enter_of_new hnew]
      exact hlists.ordered_of_new hregistered hnew
  · intro range status hafter
    rcases hregistered.since_cases hafter with ⟨old, hold, hsinceOld⟩ | ⟨-, -, hnumber⟩
    · have hlt := hlists.since_lt range old hold
      omega
    · omega
  · intro known hknown
    rcases (hmem known).mp hknown with rfl | ⟨hold, -⟩
    · exact hplaceable
    · exact hlists.placeable known hold

/-- A range that is taken out stands no more. -/
theorem withdraw (hlists : Lists number standing table) (hsame : after range = none)
    (hother : ∀ other, other ≠ range → after other = standing other) :
    Lists (number + 1) after (withdraw range table) := by
  have hmem : ∀ known, known ∈ ExprHeap.withdraw range table ↔
      known ∈ table ∧ known.range ≠ range := fun known => mem_withdraw_iff hlists.distinct
  have hbefore : ∀ other status, after other = some status → standing other = some status := by
    intro other status hafter
    by_cases hrange : other = range
    · rw [hrange, hsame] at hafter
      cases hafter
    · exact (hother other hrange).symm.trans hafter
  refine
    { distinct := distinct_withdraw hlists.distinct range
      mem_iff := ?_
      ordered := ?_
      since_lt := ?_
      placeable := fun known hknown => hlists.placeable known ((hmem known).mp hknown).1 }
  · intro known
    rw [hmem]
    by_cases hrange : known.range = range
    · simp [hrange, hsame]
    · rw [hother _ hrange, ← hlists.mem_iff]
      exact and_iff_left hrange
  · refine (hlists.ordered.sublist ((withdraw_sublist range table).map Region.range)).imp ?_
    rintro earlier later hlt first second hfirst hsecond
    exact hlt first second (hbefore _ _ hfirst) (hbefore _ _ hsecond)
  · intro other status hafter
    exact Nat.lt_succ_of_lt (hlists.since_lt other status (hbefore other status hafter))

/-- **Every call keeps the table listing what stands.** -/
theorem answer (hlists : Lists number standing table) (call : RegistryCall) :
    Lists (number + 1) (fun range => standingAfter number range (standing range) call)
      (directAnswer table call).2 := by
  cases call with
  | register base length kind =>
      simp only [directAnswer]
      by_cases haccepted : length ≠ 0 ∧ Placeable base length
      · rw [if_neg haccepted.1, if_pos haccepted.2]
        exact hlists.enter haccepted
          { same := if_pos ⟨rfl, haccepted⟩
            other := fun range hrange => if_neg fun h => hrange h.1.symm }
      · have hignored : (fun range => standingAfter number range (standing range)
            (.register base length kind)) = standing :=
          funext fun range => if_neg fun h => haccepted h.2
        rw [hignored]
        split
        · exact hlists.idle
        · rename_i hlength
          rw [if_neg fun hplaceable => haccepted ⟨hlength, hplaceable⟩]
          exact hlists.idle
  | unregister base length =>
      exact hlists.withdraw (if_pos rfl) fun range hrange => if_neg fun h => hrange h.symm
  | regions => exact hlists.idle
  | count => exact hlists.idle
  | clear =>
      exact
        { start with
          since_lt := fun range status hstanding => by cases hstanding }

theorem converse (hlists : Lists number standing table) (calls : List RegistryCall) :
    Lists (number + calls.length)
      (fun range => standingFrom number range (standing range) calls)
      (converse directAnswer table calls).2 := by
  induction calls generalizing number standing table with
  | nil => exact hlists
  | cons call rest ih =>
      have hrest := ih (hlists.answer call)
      rw [Nat.add_right_comm] at hrest
      exact hrest

end Lists

/-- The slots of a region that can be addressed are aligned, and no address wraps around. -/
theorem Region.toNat_address {region : Region} (hplaceable : Placeable region.base region.length)
    {slot : Nat} (hslot : slot < region.length.toNat) :
    (region.address slot).toNat = region.base.toNat + 8 * slot := by
  have hbound := hplaceable.2.2
  have hlength := region.length.toNat_lt
  rw [address, Memory.slotAddress, UInt64.toNat_add, UInt64.toNat_ofNat']
  omega

/-- **The queue of the registry never shows.**  Whatever the calls, the registry answers each of
them as a table does to which every request is applied at once; so what it lists does not depend
on when it was asked before.  The table lists the ranges that stand, no range twice, each in the
kind that it was last registered in and all in the order in which they were first registered since
their last removal.  A range is accepted exactly if it has no slots or all its slots can be
addressed, so that the slots of every listed region are aligned and their addresses fit 64 bits. -/
theorem Registry.refines_direct_table (calls : List RegistryCall) :
    let queued := converse answer .empty calls
    let table := (converse directAnswer [] calls).2
    queued.1 = (converse directAnswer [] calls).1 ∧
    queued.2.settle.2.regions = table ∧
    (converse answer .empty (calls.filter RegistryCall.isChange)).2.settle.2.regions = table ∧
    (table.map Region.range).Nodup ∧
    (∀ region, region ∈ table ↔
      ∃ since, standing calls region.range = some ⟨since, region.kind⟩) ∧
    (table.map Region.range).Pairwise (fun earlier later => ∀ first second,
      standing calls earlier = some first → standing calls later = some second →
        first.since < second.since) ∧
    (∀ region ∈ table, ∀ slot < region.length.toNat,
      (region.address slot).toNat = region.base.toNat + 8 * slot ∧
        8 ∣ (region.address slot).toNat) ∧
    ∀ base length kind, (∃ after, queued.2.register base length kind = .ok after) ↔
      length = 0 ∨ Placeable base length := by
  intro queued table
  have hdistinct : ((Registry.empty.settled).map Region.range).Nodup := List.nodup_nil
  obtain ⟨hanswers, hsettled⟩ := converse_eq hdistinct calls
  obtain ⟨-, hchanges⟩ := converse_eq hdistinct (calls.filter RegistryCall.isChange)
  have hlists := Lists.start.converse calls
  refine ⟨hanswers, hsettled, ?_, hlists.distinct, hlists.mem_iff, hlists.ordered, ?_, ?_⟩
  · exact hchanges.trans (converse_filter_isChange [] calls)
  · intro region hregion slot hslot
    have hplaceable := (hlists.placeable region hregion).2
    have haddress := Region.toNat_address hplaceable hslot
    exact ⟨haddress, haddress ▸ Nat.dvd_add hplaceable.2.1 (Nat.dvd_mul_right 8 slot)⟩
  · intro base length kind
    rw [register_eq]
    by_cases hempty : length = 0
    · simp [hempty]
    · by_cases hplaceable : Placeable base length
      · simp [hempty, hplaceable]
      · simp [hempty, hplaceable]

end ExprHeap
