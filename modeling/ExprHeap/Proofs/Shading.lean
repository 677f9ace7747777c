import ExprHeap.Proofs.Slots

/-!
# What shading stamps

The traversal `Table.shadeStack` stamps an entry exactly if a path along
children leads to it from the stack on which no entry, ends included, was kept
before: `getElem?_shadeStack` says so slot by slot, `entryOf?_shadeStack` of the
entries that handles name.  Nothing else about the table changes, in particular
no generation and no node; `map_bare_shadeStack` says so of the table as a
whole, by wiping the stamps on both sides.

All of this holds of every table, also one in which children name no entry.

## Strategy

The induction is on the calls of the traversal.  When it stamps the entry at the
top of the stack, a path to another entry either avoids that entry, and so is
still a path of unkept entries afterwards, or can be cut after its last visit
there, and then starts at one of the children that go onto the stack
(`exists_unkeptPath_cons_iff`).
-/

namespace ExprHeap

/-- A slot without its stamp of shading. -/
def Slot.bare (slot : Slot) : Slot :=
  { slot with entry := slot.entry.map fun entry => { entry with shaded := 0 } }

theorem Slot.bare_stamped (slot : Slot) (epoch : Nat) : (slot.stamped epoch).bare = slot.bare := by
  obtain ⟨generation, content⟩ := slot
  cases content <;> rfl

/-- To stamp a slot again changes nothing. -/
theorem Slot.stamped_stamped (slot : Slot) (epoch : Nat) :
    (slot.stamped epoch).stamped epoch = slot.stamped epoch := by
  obtain ⟨generation, content⟩ := slot
  cases content <;> rfl

theorem Slot.generation_eq_of_bare_eq {slot other : Slot} (hbare : slot.bare = other.bare) :
    slot.generation = other.generation := by
  simpa [bare] using congrArg Slot.generation hbare

theorem Slot.entry_eq_none_iff_of_bare_eq {slot other : Slot} (hbare : slot.bare = other.bare) :
    slot.entry = none ↔ other.entry = none := by
  have hentry := congrArg Slot.entry hbare
  unfold bare at hentry
  cases hslot : slot.entry <;> cases hother : other.entry <;> simp_all

namespace Table

variable {table : Table} {epoch : Nat}

/-! ## Paths of unkept entries -/

/-- A handle names this entry, which nothing has kept in this epoch. -/
def Unkept (table : Table) (epoch : Nat) (handle : Handle) (entry : Entry) : Prop :=
  table.entryOf? handle = some entry ∧ entry.isKept epoch = false

theorem not_unkept_of_missing {handle : Handle} (hentry : table.entryOf? handle = none)
    (entry : Entry) : ¬ table.Unkept epoch handle entry :=
  fun hunkept => absurd (hunkept.1.symm.trans hentry) (Option.some_ne_none entry)

theorem not_unkept_of_kept {handle : Handle} {entry : Entry}
    (hentry : table.entryOf? handle = some entry) (hkept : entry.isKept epoch = true)
    (other : Entry) : ¬ table.Unkept epoch handle other := by
  rintro ⟨hother, hunkept⟩
  obtain rfl := Option.some.inj (hentry.symm.trans hother)
  exact absurd hkept (by simp [hunkept])

/-- A path along children, all of whose entries are unkept. -/
inductive UnkeptPath (table : Table) (epoch : Nat) (start : Handle) : Handle → Prop
  | here {entry : Entry} : table.Unkept epoch start entry → UnkeptPath table epoch start start
  | child {parent child : Handle} {parentEntry entry : Entry} :
      UnkeptPath table epoch start parent → table.Unkept epoch parent parentEntry →
      child ∈ parentEntry.node.children → table.Unkept epoch child entry →
      UnkeptPath table epoch start child

theorem UnkeptPath.exists_unkept {start handle : Handle}
    (hpath : table.UnkeptPath epoch start handle) : ∃ entry, table.Unkept epoch handle entry := by
  cases hpath with
  | here hunkept => exact ⟨_, hunkept⟩
  | child _ _ _ hunkept => exact ⟨_, hunkept⟩

theorem UnkeptPath.start_unkept {start handle : Handle}
    (hpath : table.UnkeptPath epoch start handle) : ∃ entry, table.Unkept epoch start entry := by
  induction hpath with
  | here hunkept => exact ⟨_, hunkept⟩
  | child _ _ _ _ ih => exact ih

/-- A path can be continued backwards to a parent of its first entry. -/
theorem UnkeptPath.cons {start child handle : Handle} {entry : Entry}
    (hstart : table.Unkept epoch start entry) (hchild : child ∈ entry.node.children)
    (hpath : table.UnkeptPath epoch child handle) : table.UnkeptPath epoch start handle := by
  induction hpath with
  | here hunkept => exact .child (.here hstart) hstart hchild hunkept
  | child _ hparent hmem hunkept ih => exact .child ih hparent hmem hunkept

theorem UnkeptPath.mono {other : Table} {start handle : Handle}
    (hmono : ∀ handle entry, table.Unkept epoch handle entry → other.Unkept epoch handle entry)
    (hpath : table.UnkeptPath epoch start handle) : other.UnkeptPath epoch start handle := by
  induction hpath with
  | here hunkept => exact .here (hmono _ _ hunkept)
  | child _ hparent hmem hunkept ih => exact .child ih (hmono _ _ hparent) hmem (hmono _ _ hunkept)

/-- After an entry was stamped, the unkept entries are the others that were unkept before. -/
theorem unkept_stamp_iff {handle other : Handle} {entry otherEntry : Entry}
    (hentry : table.entryOf? handle = some entry) :
    (table.stamp handle.index epoch).Unkept epoch other otherEntry ↔
      other ≠ handle ∧ table.Unkept epoch other otherEntry := by
  unfold Unkept
  rw [entryOf?_stamp]
  -- a stamp changes one slot, and there only this handle names an entry
  by_cases hindex : other.index = handle.index
  · rw [if_pos hindex]
    constructor
    · rintro ⟨hstamped, hunkept⟩
      obtain ⟨before, -, rfl⟩ := Option.map_eq_some_iff.mp hstamped
      simp [Entry.isKept] at hunkept
    · rintro ⟨hne, hother, -⟩
      exact absurd (entryOf?_index_injective hother hentry hindex) hne
  · rw [if_neg hindex]
    have hne : other ≠ handle := fun h => hindex (by rw [h])
    simp [hne]

/-- Stamping an entry and stacking its children leaves the same entries to be reached. -/
theorem exists_unkeptPath_cons_iff {handle target : Handle} {entry : Entry} {rest : List Handle}
    (hunkept : table.Unkept epoch handle entry) :
    (∃ root ∈ handle :: rest, table.UnkeptPath epoch root target) ↔
      target = handle ∨ ∃ root ∈ entry.node.children ++ rest,
        (table.stamp handle.index epoch).UnkeptPath epoch root target := by
  have hstamp : ∀ {other otherEntry}, (table.stamp handle.index epoch).Unkept epoch other
      otherEntry ↔ other ≠ handle ∧ table.Unkept epoch other otherEntry :=
    unkept_stamp_iff hunkept.1
  constructor
  · rintro ⟨root, hroot, hpath⟩
    induction hpath with
    | here hstart =>
        -- a path without steps survives unless it stands on the stamped entry
        by_cases hhandle : root = handle
        · exact .inl hhandle
        · have hrest : root ∈ rest := by simpa [hhandle] using hroot
          exact .inr ⟨root, List.mem_append_right _ hrest, .here (hstamp.mpr ⟨hhandle, hstart⟩)⟩
    | @child parent child parentEntry _ _ hparent hmem hchild ih =>
        by_cases hhandle : child = handle
        · exact .inl hhandle
        · have hchild' := hstamp.mpr ⟨hhandle, hchild⟩
          refine .inr ?_
          -- a path that has come to the stamped entry is cut there and starts anew at the child
          rcases ih with rfl | ⟨first, hfirst, hprefix⟩
          · have hsame : parentEntry = entry := Option.some.inj (hparent.1.symm.trans hunkept.1)
            subst hsame
            exact ⟨child, List.mem_append_left _ hmem, .here hchild'⟩
          · obtain ⟨last, hlast⟩ := hprefix.exists_unkept
            have hsame : parentEntry = last :=
              Option.some.inj (hparent.1.symm.trans (hstamp.mp hlast).2.1)
            subst hsame
            exact ⟨first, hfirst, .child hprefix hlast hmem hchild'⟩
  · rintro (rfl | ⟨root, hroot, hpath⟩)
    · exact ⟨target, List.mem_cons_self, .here hunkept⟩
    · have hbefore := hpath.mono fun _ _ h => (hstamp.mp h).2
      rcases List.mem_append.mp hroot with hchild | hrest
      · exact ⟨handle, List.mem_cons_self, hbefore.cons hunkept hchild⟩
      · exact ⟨root, List.mem_cons_of_mem _ hrest, hbefore⟩

/-- A path of unkept entries leads from the stack to the entry in this slot. -/
def Reaches (table : Table) (epoch : Nat) (stack : List Handle) (position : Nat) : Prop :=
  ∃ root ∈ stack, ∃ handle : Handle,
    handle.index.toNat = position ∧ table.UnkeptPath epoch root handle

variable {top : Handle} {rest : List Handle} {position : Nat}

theorem Reaches.mono {stack other : List Handle} (hsubset : stack ⊆ other)
    (hreaches : table.Reaches epoch stack position) : table.Reaches epoch other position := by
  obtain ⟨root, hroot, hpath⟩ := hreaches
  exact ⟨root, hsubset hroot, hpath⟩

/-- No path starts at a handle whose entry is missing or kept. -/
theorem reaches_cons_of_not_unkept (htop : ∀ entry, ¬ table.Unkept epoch top entry) :
    table.Reaches epoch (top :: rest) position ↔ table.Reaches epoch rest position := by
  refine ⟨?_, Reaches.mono (List.subset_cons_self top rest)⟩
  rintro ⟨root, hroot, handle, hposition, hpath⟩
  rcases List.mem_cons.mp hroot with rfl | hrest
  · obtain ⟨entry, hunkept⟩ := hpath.start_unkept
    exact absurd hunkept (htop entry)
  · exact ⟨root, hrest, handle, hposition, hpath⟩

theorem reaches_cons_of_unkept {entry : Entry} (hunkept : table.Unkept epoch top entry) :
    table.Reaches epoch (top :: rest) position ↔ top.index.toNat = position ∨
      (table.stamp top.index epoch).Reaches epoch (entry.node.children ++ rest) position := by
  have hcons : ∀ target, (∃ root ∈ top :: rest, table.UnkeptPath epoch root target) ↔
      target = top ∨ ∃ root ∈ entry.node.children ++ rest,
        (table.stamp top.index epoch).UnkeptPath epoch root target :=
    fun _ => exists_unkeptPath_cons_iff hunkept
  constructor
  · rintro ⟨root, hroot, handle, rfl, hpath⟩
    rcases (hcons handle).mp ⟨root, hroot, hpath⟩ with rfl | ⟨first, hfirst, hrest⟩
    · exact .inl rfl
    · exact .inr ⟨first, hfirst, handle, rfl, hrest⟩
  · rintro (rfl | ⟨first, hfirst, handle, rfl, hrest⟩)
    · exact ⟨top, List.mem_cons_self, top, rfl, .here hunkept⟩
    · obtain ⟨root, hroot, hpath⟩ := (hcons handle).mpr (.inr ⟨first, hfirst, hrest⟩)
      exact ⟨root, hroot, handle, rfl, hpath⟩

/-! ## The traversal -/

/-- A handle whose entry is missing or kept is passed over. -/
theorem shadeStack_cons_of_not_unkept (htop : ∀ entry, ¬ table.Unkept epoch top entry) :
    shadeStack epoch table (top :: rest) = shadeStack epoch table rest := by
  rw [shadeStack]
  split
  · rfl
  · next entry hentry =>
      have hkept : entry.isKept epoch = true :=
        Bool.of_not_eq_false fun hkept => htop entry ⟨hentry, hkept⟩
      rw [dif_pos hkept]

/-- An entry that awaits shading is stamped, and its children are next. -/
theorem shadeStack_cons_of_unkept {entry : Entry} (hunkept : table.Unkept epoch top entry) :
    shadeStack epoch table (top :: rest) =
      shadeStack epoch (table.stamp top.index epoch) (entry.node.children ++ rest) := by
  rw [shadeStack]
  split
  · next hentry => cases hunkept.1.symm.trans hentry
  · next other hother =>
      obtain rfl := Option.some.inj (hunkept.1.symm.trans hother)
      rw [dif_neg (by simp [hunkept.2])]

open Classical in
/-- **Shading stamps the slots that paths of unkept entries reach, and leaves the others.** -/
theorem getElem?_shadeStack (epoch : Nat) (table : Table) (stack : List Handle) (position : Nat) :
    (shadeStack epoch table stack)[position]? =
      if table.Reaches epoch stack position then table[position]?.map (·.stamped epoch)
      else table[position]? := by
  fun_induction shadeStack epoch table stack with
  | case1 table => simp [Reaches]
  | case2 table top rest hentry ih =>
      rw [ih, reaches_cons_of_not_unkept (not_unkept_of_missing hentry)]
  | case3 table top rest entry hentry hkept ih =>
      rw [ih, reaches_cons_of_not_unkept (not_unkept_of_kept hentry hkept)]
  | case4 table top rest entry hentry hkept ih =>
      have hunkept : table.Unkept epoch top entry := ⟨hentry, by simpa using hkept⟩
      rw [ih, getElem?_stamp, reaches_cons_of_unkept hunkept]
      -- a slot that is met again on a later path is stamped twice with the same epoch
      by_cases htop : top.index.toNat = position
      · simp only [htop, true_or, if_true, Option.map_map, Function.comp_def,
          Slot.stamped_stamped, ite_self]
      · simp only [htop, false_or, if_false]

open Classical in
/-- **Shading stamps exactly the entries that paths of unkept entries reach.** -/
theorem entryOf?_shadeStack (epoch : Nat) (table : Table) (stack : List Handle) (handle : Handle) :
    (shadeStack epoch table stack).entryOf? handle =
      if ∃ root ∈ stack, table.UnkeptPath epoch root handle then
        (table.entryOf? handle).map fun entry => { entry with shaded := epoch }
      else table.entryOf? handle := by
  have hslot := getElem?_shadeStack epoch table stack handle.index.toNat
  by_cases hpath : ∃ root ∈ stack, table.UnkeptPath epoch root handle
  · obtain ⟨root, hroot, hreached⟩ := hpath
    obtain ⟨entry, hentry, -⟩ := hreached.exists_unkept
    rw [if_pos ⟨root, hroot, handle, rfl, hreached⟩, entryOf?_eq_some_iff.mp hentry] at hslot
    rw [if_pos ⟨root, hroot, hreached⟩, hentry, entryOf?_of_slot hslot, Slot.generation_stamped,
      if_pos rfl, Slot.entry_stamped]
  · rw [if_neg hpath]
    by_cases hreaches : table.Reaches epoch stack handle.index.toNat
    · -- the slot holds the entry of another handle, so this one names nothing
      obtain ⟨root, hroot, other, hindex, hreached⟩ := hreaches
      obtain ⟨entry, hother, -⟩ := hreached.exists_unkept
      have hgeneration : other.generation ≠ handle.generation := fun hsame =>
        hpath ⟨root, hroot, Handle.ext_toNat hindex hsame ▸ hreached⟩
      have hbefore := entryOf?_eq_some_iff.mp hother
      rw [hindex] at hbefore
      rw [hbefore, if_pos ⟨root, hroot, other, hindex, hreached⟩] at hslot
      rw [entryOf?_of_slot hslot, entryOf?_of_slot hbefore, Slot.generation_stamped,
        if_neg hgeneration, if_neg hgeneration]
    · rw [if_neg hreaches] at hslot
      rw [entryOf?, hslot, entryOf?]

/-- Shading changes nothing but stamps. -/
theorem map_bare_shadeStack (epoch : Nat) (table : Table) (stack : List Handle) :
    (shadeStack epoch table stack).map Slot.bare = table.map Slot.bare := by
  apply Array.ext_getElem?
  intro position
  rw [Array.getElem?_map, Array.getElem?_map, getElem?_shadeStack]
  split
  · rw [Option.map_map]
    exact Option.map_congr fun slot _ => slot.bare_stamped epoch
  · rfl

end Table

end ExprHeap
