import ExprHeap.Proofs.Sharing
import Mathlib.Data.Nat.ModEq

/-!
# Typed nodes

The constructions other than `exactly` work out the width of a node, and cut integers down to
theirs.  A node of theirs is *typed*: its width is what its operation and the widths of its
children make it (`Typed`).  `Moment.builders_type_nodes` says that every node is typed at every
moment that is reached by such constructions, collections and all requests of other kinds.

The widths are worked out in words of 32 bits, and the masks in words of 128.
`Construction.wideNode` is the same in natural numbers, where nothing wraps, and `toNode` does as
it does but for refusing a width that is no word (`Construction.toNode_eq`).

## Strategy

Being typed is about a node and the widths that its children have now, while nodes are taken away
and slots are filled again.  But a handle keeps its node, and so its width, for as long as it is
allocated; a new node looks up the widths of its children at the moment that it takes their
handles; and no child goes before its parent.  So no step changes the width of a child of a node
that is left (`Typed.mono`).
-/

namespace ExprHeap

/-! ### Exact arithmetic -/

/-- A node with any number of bits. -/
structure WideNode where
  op : Op
  children : List Handle
  width : Nat

/-- The node, if its width is a word. -/
def WideNode.fit (node : WideNode) : Except HeapError Node :=
  if node.width < UInt32.size then .ok ⟨node.op, node.children, .ofNat node.width⟩
  else .error (.badWidth node.op)

theorem WideNode.fit_eq {op : Op} {children : List Handle} {wide : Nat} {width : UInt32}
    (hwidth : wide = width.toNat) :
    WideNode.fit ⟨op, children, wide⟩ = .ok ⟨op, children, width⟩ := by
  rw [fit, hwidth, if_pos width.toNat_lt, UInt32.ofNat_toNat]

/-- A width that is looked up fits. -/
theorem WideNode.bind_fit (answer : Except HeapError UInt32) (op : Op) (children : List Handle) :
    (do return (⟨op, children, ← answer⟩ : Node)) =
      (do return (⟨op, children, (← answer).toNat⟩ : WideNode) : Except _ _).bind WideNode.fit := by
  cases answer with
  | error error => rfl
  | ok width => exact (WideNode.fit_eq rfl).symm

theorem toNat_shiftedOne {width : Nat} (hwidth : width < 128) :
    (1#128 <<< width).toNat = 2 ^ width := by
  have hbound : 2 ^ width < 2 ^ 128 := Nat.pow_lt_pow_right (by omega) hwidth
  rw [BitVec.toNat_shiftLeft, Nat.shiftLeft_eq, BitVec.toNat_ofNat]
  simpa using Nat.mod_eq_of_lt hbound

theorem toNat_lowBits (width : UInt32) : (lowBits width).toNat = 2 ^ min width.toNat 128 - 1 := by
  unfold lowBits
  split
  · rename_i hwide
    rw [BitVec.toNat_allOnes, Nat.min_eq_right hwide]
  · rename_i hnarrow
    -- the shifted one is no less than one, so nothing is borrowed
    have hone : 1#128 ≤ 1#128 <<< width.toNat := by
      rw [BitVec.le_def, toNat_shiftedOne (by omega)]
      exact Nat.one_le_two_pow
    rw [BitVec.toNat_sub_of_le hone, toNat_shiftedOne (by omega), Nat.min_eq_left (by omega)]
    rfl

theorem toNat_truncated (value : BitVec 128) (width : UInt32) :
    (truncated value width).toNat = value.toNat % 2 ^ min width.toNat 128 := by
  rw [truncated, BitVec.toNat_and, toNat_lowBits, Nat.and_two_pow_sub_one_eq_mod]

theorem toNat_truncated_lt (value : BitVec 128) (width : UInt32) :
    (truncated value width).toNat < 2 ^ width.toNat := by
  rw [toNat_truncated]
  calc value.toNat % 2 ^ min width.toNat 128
      < 2 ^ min width.toNat 128 := Nat.mod_lt _ (Nat.two_pow_pos _)
    _ ≤ 2 ^ width.toNat := Nat.pow_le_pow_right (by omega) (Nat.min_le_left _ _)

/-- No power of two beyond `2 ^ 128` makes a difference. -/
theorem truncated_eq (value : BitVec 128) (width : UInt32) :
    truncated value width = .ofNat 128 (value.toNat % 2 ^ width.toNat) := by
  have hvalue : value.toNat < 2 ^ 128 := value.isLt
  have hrest : value.toNat % 2 ^ width.toNat < 2 ^ 128 := (Nat.mod_le _ _).trans_lt hvalue
  apply BitVec.eq_of_toNat_eq
  rw [toNat_truncated, BitVec.toNat_ofNat, Nat.mod_eq_of_lt hrest]
  rcases Nat.le_total width.toNat 128 with hnarrow | hwide
  · rw [Nat.min_eq_left hnarrow]
  · -- from 128 bits on the value is below the modulus already
    have hpower : 2 ^ 128 ≤ 2 ^ width.toNat := Nat.pow_le_pow_right (by omega) hwide
    rw [Nat.min_eq_right hwide, Nat.mod_eq_of_lt hvalue,
      Nat.mod_eq_of_lt (hvalue.trans_le hpower)]

namespace Construction

/-- The node that is asked for, worked out in natural numbers. -/
def wideNode (widthOf : Handle → Except HeapError UInt32) :
    Construction → Except HeapError WideNode
  | .exactly node => .ok ⟨node.op, node.children, node.width.toNat⟩
  | .integer value width =>
    .ok ⟨.integer (.ofNat 128 (value.toNat % 2 ^ width.toNat)), [], width.toNat⟩
  | .bool value => .ok ⟨.bool value, [], 1⟩
  | .float bits true => .ok ⟨.float bits, [], 64⟩
  | .float bits false => .ok ⟨.float (Ieee.Single.ofDouble bits).bits.toUInt64, [], 32⟩
  | .nullPointer => .ok ⟨.nullPointer, [], 64⟩
  | .input offset => .ok ⟨.input offset, [], 8⟩
  | .unary op operand => do
    return ⟨.unary op, [operand], (← widthOf operand).toNat⟩
  | .binary op left right => do
    return ⟨.binary op, [left, right], (← widthOf left).toNat⟩
  | .compare predicate left right => .ok ⟨.compare predicate, [left, right], 1⟩
  | .cast op operand width => .ok ⟨.cast op, [operand], width.toNat⟩
  | .extract operand first last => do
    let whole ← widthOf operand
    if last.toNat ≤ first.toNat ∧ first.toNat < whole.toNat then
      return ⟨.extract first last, [operand], first.toNat - last.toNat + 1⟩
    else .error (.badExtract first last whole)
  | .concat high low => do
    return ⟨.concat, [high, low], (← widthOf high).toNat + (← widthOf low).toNat⟩
  | .ite condition positive negative => do
    return ⟨.ite, [condition, positive, negative], (← widthOf positive).toNat⟩
  | .memoryRead address bytes => .ok ⟨.memoryRead bytes, [address], 8 * bytes.toNat⟩

/-- The steps that a construction takes in words, one by one, come to what they come to in natural
numbers. -/
def StepsExact (widthOf : Handle → Except HeapError UInt32) : Construction → Prop
  | .integer _ width => width.toNat < 128 →
      (1#128 <<< width.toNat).toNat = 2 ^ width.toNat ∧
        ((1#128 <<< width.toNat) - 1#128).toNat = 2 ^ width.toNat - 1
  | .extract operand first last => ∀ whole, widthOf operand = .ok whole → last ≤ first →
      first < whole → (first - last).toNat = first.toNat - last.toNat ∧
        (first - last + 1).toNat = (first - last).toNat + 1
  | .concat high low => ∀ highWidth lowWidth, widthOf high = .ok highWidth →
      widthOf low = .ok lowWidth → highWidth.toNat + lowWidth.toNat < UInt32.size →
      (highWidth + lowWidth).toNat = highWidth.toNat + lowWidth.toNat
  | .memoryRead _ bytes => 8 * bytes.toNat < UInt32.size → (8 * bytes).toNat = 8 * bytes.toNat
  | _ => True

theorem stepsExact (widthOf : Handle → Except HeapError UInt32) (construction : Construction) :
    construction.StepsExact widthOf := by
  cases construction with
  | integer value width =>
      intro hwidth
      have hmask := toNat_lowBits width
      rw [lowBits, if_neg (by omega), Nat.min_eq_left (by omega)] at hmask
      exact ⟨toNat_shiftedOne hwidth, hmask⟩
  | extract operand first last =>
      -- the guard keeps both steps in range: the width of the operand is a 32-bit number
      intro whole _ hlast hfirst
      have hdifference := UInt32.toNat_sub_of_le first last hlast
      have hbound : first.toNat < whole.toNat := UInt32.lt_iff_toNat_lt.mp hfirst
      have hwhole : whole.toNat < 2 ^ 32 := whole.toNat_lt
      refine ⟨hdifference, ?_⟩
      rw [UInt32.toNat_add, UInt32.toNat_one]
      omega
  | concat high low =>
      intro highWidth lowWidth _ _ hsum
      rw [UInt32.toNat_add]
      exact Nat.mod_eq_of_lt hsum
  | memoryRead address bytes =>
      intro hproduct
      rw [UInt32.toNat_mul]
      exact Nat.mod_eq_of_lt hproduct
  | exactly _ | bool _ | float _ _ | nullPointer | input _ | unary _ _ | binary _ _ _
  | compare _ _ _ | cast _ _ _ | ite _ _ _ => trivial

/-- **The arithmetic is exact.**  In words or in natural numbers, a construction asks for the same
node, or is refused for the same reason; all that words add is that a width has to be one. -/
theorem toNode_eq (widthOf : Handle → Except HeapError UInt32) (construction : Construction) :
    construction.toNode widthOf = (construction.wideNode widthOf).bind WideNode.fit := by
  have hsteps := construction.stepsExact widthOf
  cases construction with
  | exactly node => exact (WideNode.fit_eq rfl).symm
  | integer value width =>
      rw [toNode, truncated_eq]
      exact (WideNode.fit_eq rfl).symm
  | bool value => rfl
  | float bits double => cases double <;> rfl
  | nullPointer => rfl
  | input offset => rfl
  | unary op operand => exact WideNode.bind_fit (widthOf operand) _ _
  | binary op left right => exact WideNode.bind_fit (widthOf left) _ _
  | compare predicate left right => rfl
  | cast op operand width => exact (WideNode.fit_eq rfl).symm
  | extract operand first last =>
      simp only [toNode, wideNode]
      cases hwhole : widthOf operand with
      | error error => rfl
      | ok whole =>
          -- the two guards say the same once they are read as natural numbers
          have hguard : first < last ∨ whole ≤ first ↔
              ¬ (last.toNat ≤ first.toNat ∧ first.toNat < whole.toNat) := by
            rw [UInt32.lt_iff_toNat_lt, UInt32.le_iff_toNat_le]
            omega
          simp only [bind, Except.bind, Bool.or_eq_true, decide_eq_true_eq, hguard]
          by_cases hrange : last.toNat ≤ first.toNat ∧ first.toNat < whole.toNat
          · have hlast : last ≤ first := UInt32.le_iff_toNat_le.mpr hrange.1
            have hfirst : first < whole := UInt32.lt_iff_toNat_lt.mpr hrange.2
            obtain ⟨hdifference, hwidth⟩ := hsteps whole hwhole hlast hfirst
            rw [if_neg (not_not.mpr hrange), if_pos hrange]
            rw [hdifference] at hwidth
            exact (WideNode.fit_eq hwidth.symm).symm
          · rw [if_pos hrange, if_neg hrange]
  | concat high low =>
      simp only [toNode, wideNode]
      cases hhigh : widthOf high with
      | error error => rfl
      | ok highWidth =>
          cases hlow : widthOf low with
          | error error => rfl
          | ok lowWidth =>
              simp only [bind, Except.bind]
              split
              · rename_i hsum
                exact (WideNode.fit_eq (hsteps _ _ hhigh hlow hsum).symm).symm
              · rename_i hsum
                exact (if_neg hsum).symm
  | ite condition positive negative => exact WideNode.bind_fit (widthOf positive) _ _
  | memoryRead address bytes =>
      simp only [toNode, wideNode]
      split
      · rename_i hproduct
        exact (WideNode.fit_eq (hsteps hproduct).symm).symm
      · rename_i hproduct
        exact (if_neg hproduct).symm

end Construction

/-! ### Typed nodes -/

/-- The width of a node is what its operation makes of the widths of its children. -/
inductive Typed (hasWidth : Handle → UInt32 → Prop) : Node → Prop
  | integer {value : BitVec 128} {width : UInt32} :
      value.toNat < 2 ^ width.toNat → Typed hasWidth ⟨.integer value, [], width⟩
  | bool (value : Bool) : Typed hasWidth ⟨.bool value, [], 1⟩
  | double (bits : UInt64) : Typed hasWidth ⟨.float bits, [], 64⟩
  | single {bits : UInt64} : bits.toNat < 2 ^ 32 → Typed hasWidth ⟨.float bits, [], 32⟩
  | nullPointer : Typed hasWidth ⟨.nullPointer, [], 64⟩
  | input (offset : UInt64) : Typed hasWidth ⟨.input offset, [], 8⟩
  | unary (op : UnaryOp) {operand : Handle} {width : UInt32} :
      hasWidth operand width → Typed hasWidth ⟨.unary op, [operand], width⟩
  | binary (op : BinaryOp) {left right : Handle} {width : UInt32} :
      hasWidth left width → Typed hasWidth ⟨.binary op, [left, right], width⟩
  | compare (predicate : Predicate) (left right : Handle) :
      Typed hasWidth ⟨.compare predicate, [left, right], 1⟩
  /-- A conversion may be to any width. -/
  | cast (op : CastOp) (operand : Handle) (width : UInt32) :
      Typed hasWidth ⟨.cast op, [operand], width⟩
  | extract {operand : Handle} {first last whole width : UInt32} :
      hasWidth operand whole → last ≤ first → first < whole →
      width.toNat = first.toNat - last.toNat + 1 →
      Typed hasWidth ⟨.extract first last, [operand], width⟩
  | concat {high low : Handle} {highWidth lowWidth width : UInt32} :
      hasWidth high highWidth → hasWidth low lowWidth →
      width.toNat = highWidth.toNat + lowWidth.toNat → Typed hasWidth ⟨.concat, [high, low], width⟩
  | ite {condition positive negative : Handle} {width : UInt32} :
      hasWidth positive width → Typed hasWidth ⟨.ite, [condition, positive, negative], width⟩
  | memoryRead {address : Handle} {bytes width : UInt32} :
      width.toNat = 8 * bytes.toNat → Typed hasWidth ⟨.memoryRead bytes, [address], width⟩

/-- Only the widths of the children matter. -/
theorem Typed.mono {hasWidth hasWidth' : Handle → UInt32 → Prop} {node : Node}
    (htyped : Typed hasWidth node)
    (hkept : ∀ child ∈ node.children, ∀ width, hasWidth child width → hasWidth' child width) :
    Typed hasWidth' node := by
  cases htyped with
  | integer hvalue => exact .integer hvalue
  | bool value => exact .bool value
  | double bits => exact .double bits
  | single hbits => exact .single hbits
  | nullPointer => exact .nullPointer
  | input offset => exact .input offset
  | unary op hwidth => exact .unary op (hkept _ (by simp) _ hwidth)
  | binary op hwidth => exact .binary op (hkept _ (by simp) _ hwidth)
  | compare predicate left right => exact .compare predicate left right
  | cast op operand width => exact .cast op operand width
  | extract hwhole hlast hfirst hwidth =>
      exact .extract (hkept _ (by simp) _ hwhole) hlast hfirst hwidth
  | concat hhigh hlow hwidth =>
      exact .concat (hkept _ (by simp) _ hhigh) (hkept _ (by simp) _ hlow) hwidth
  | ite hwidth => exact .ite (hkept _ (by simp) _ hwidth)
  | memoryRead hwidth => exact .memoryRead hwidth

/-- **What a builder asks for is typed.** -/
theorem Construction.typed_of_toNode {widthOf : Handle → Except HeapError UInt32}
    {construction : Construction} {node : Node} (hbuilder : ∀ raw, construction ≠ .exactly raw)
    (hnode : construction.toNode widthOf = .ok node) :
    Typed (fun handle width => widthOf handle = .ok width) node := by
  have hsteps := construction.stepsExact widthOf
  cases construction with
  | exactly raw => exact absurd rfl (hbuilder raw)
  | integer value width =>
      obtain rfl := Except.ok.inj hnode
      exact .integer (toNat_truncated_lt value width)
  | bool value =>
      obtain rfl := Except.ok.inj hnode
      exact .bool value
  | float bits double =>
      cases double with
      | true =>
          obtain rfl := Except.ok.inj hnode
          exact .double bits
      | false =>
          obtain rfl := Except.ok.inj hnode
          refine .single ?_
          rw [UInt32.toNat_toUInt64]
          exact UInt32.toNat_lt _
  | nullPointer =>
      obtain rfl := Except.ok.inj hnode
      exact .nullPointer
  | input offset =>
      obtain rfl := Except.ok.inj hnode
      exact .input offset
  | unary op operand =>
      obtain ⟨width, hwidth, hdone⟩ := exists_of_bind_eq_ok hnode
      obtain rfl := Except.ok.inj hdone
      exact .unary op hwidth
  | binary op left right =>
      obtain ⟨width, hwidth, hdone⟩ := exists_of_bind_eq_ok hnode
      obtain rfl := Except.ok.inj hdone
      exact .binary op hwidth
  | compare predicate left right =>
      obtain rfl := Except.ok.inj hnode
      exact .compare predicate left right
  | cast op operand width =>
      obtain rfl := Except.ok.inj hnode
      exact .cast op operand width
  | extract operand first last =>
      obtain ⟨whole, hwhole, hdone⟩ := exists_of_bind_eq_ok hnode
      split at hdone
      · cases hdone
      · rename_i hrange
        obtain rfl := Except.ok.inj hdone
        simp only [Bool.or_eq_true, decide_eq_true_eq, not_or, UInt32.not_lt,
          UInt32.not_le] at hrange
        obtain ⟨hdifference, hwidth⟩ := hsteps whole hwhole hrange.1 hrange.2
        exact .extract hwhole hrange.1 hrange.2 (by rw [hwidth, hdifference])
  | concat high low =>
      obtain ⟨highWidth, hhigh, hrest⟩ := exists_of_bind_eq_ok hnode
      obtain ⟨lowWidth, hlow, hdone⟩ := exists_of_bind_eq_ok hrest
      split at hdone
      · rename_i hsum
        obtain rfl := Except.ok.inj hdone
        exact .concat hhigh hlow (hsteps highWidth lowWidth hhigh hlow hsum)
      · cases hdone
  | ite condition positive negative =>
      obtain ⟨width, hwidth, hdone⟩ := exists_of_bind_eq_ok hnode
      obtain rfl := Except.ok.inj hdone
      exact .ite hwidth
  | memoryRead address bytes =>
      simp only [toNode] at hnode
      split at hnode
      · rename_i hproduct
        obtain rfl := Except.ok.inj hnode
        exact .memoryRead (hsteps hproduct)
      · cases hnode

/-! ### Typed arenas -/

namespace Arena

variable {arena before after : Arena} {issued : Nat}

/-- The handle names a node of this width. -/
def HasWidth (arena : Arena) (handle : Handle) (width : UInt32) : Prop :=
  ∃ node, arena.node? handle = some node ∧ node.width = width

/-- Every node is typed by the widths that its children have now. -/
def WellTyped (arena : Arena) : Prop :=
  ∀ handle node, arena.node? handle = some node → Typed arena.HasWidth node

theorem Extends.hasWidth (hextends : Extends before after) {handle : Handle} {width : UInt32}
    (hwidth : before.HasWidth handle width) : after.HasWidth handle width := by
  obtain ⟨node, hnode, rfl⟩ := hwidth
  exact ⟨node, hextends handle node hnode, rfl⟩

namespace WellTyped

theorem empty (capacity : Nat) : (Arena.empty capacity).WellTyped := by
  intro handle node hnode
  simp [Arena.empty, Arena.node?, Table.entryOf?] at hnode

/-- With more nodes, if the new ones are typed. -/
theorem extend (htyped : before.WellTyped) (hextends : Extends before after)
    (hnew : ∀ handle node, after.node? handle = some node →
      before.node? handle = some node ∨ Typed before.HasWidth node) : after.WellTyped := by
  intro handle node hnode
  have hbefore : Typed before.HasWidth node := by
    rcases hnew handle node hnode with hold | hfresh
    · exact htyped handle node hold
    · exact hfresh
  exact hbefore.mono fun _ _ _ => hextends.hasWidth

/-- With fewer nodes, if no child of a node that is left goes. -/
theorem restrict (htyped : before.WellTyped) (hextends : Extends after before)
    (hgapless : after.ChildrenAllocated) : after.WellTyped := by
  intro handle node hnode
  refine (htyped handle node (hextends handle node hnode)).mono ?_
  rintro child hmem width ⟨old, hold, rfl⟩
  obtain ⟨left, hleft⟩ := contains_iff.mp (hgapless handle node hnode child hmem)
  obtain rfl := Option.some.inj (hold.symm.trans (hextends child left hleft))
  exact ⟨old, hleft, rfl⟩

/-- Being typed is about the nodes alone. -/
theorem of_same (htyped : before.WellTyped)
    (hsame : ∀ handle, after.node? handle = before.node? handle) : after.WellTyped := by
  refine htyped.extend (fun handle node hnode => (hsame handle).trans hnode) ?_
  intro handle node hnode
  exact .inl ((hsame handle).symm.trans hnode)

theorem request (htyped : arena.WellTyped) (hcoherent : arena.Coherent issued) {node : Node}
    (hnode : Typed arena.HasWidth node) : (arena.request node).WellTyped := by
  refine htyped.extend (hcoherent.extends_request node) ?_
  intro handle other hother
  rw [hcoherent.node?_request] at hother
  split at hother
  · obtain rfl := Option.some.inj hother
    exact .inr hnode
  · exact .inl hother

end WellTyped

end Arena

theorem Store.hasWidth_of_widthOf {store : Store} {handle : Handle} {width : UInt32}
    (hwidth : store.widthOf handle = .ok width) : store.arena.HasWidth handle width := by
  unfold widthOf Store.node at hwidth
  split at hwidth
  · rename_i node hnode
    exact ⟨node, hnode, Except.ok.inj hwidth⟩
  · cases hwidth

/-- A request of any kind but for a node as it stands keeps the nodes typed. -/
theorem Session.wellTyped_request {session : Session} {issued : Nat} {asked : Request}
    (htyped : session.arena.WellTyped) (hcoherent : session.arena.Coherent issued)
    (hbuilder : ∀ raw, asked ≠ .build (.exactly raw)) :
    (session.request asked).arena.WellTyped := by
  rw [arena_request]
  cases asked with
  | build construction =>
      have hconstruction : ∀ raw, construction ≠ .exactly raw := by
        rintro raw rfl
        exact hbuilder raw rfl
      simp only [nodeRequest?]
      cases hnode : construction.toNode session.heap.store.widthOf with
      | error error => exact htyped
      | ok node =>
          have hasked : Typed session.arena.HasWidth node :=
            (Construction.typed_of_toNode hconstruction hnode).mono
              fun _ _ _ => Store.hasWidth_of_widthOf
          exact htyped.request hcoherent hasked
  | shade root => exact htyped.of_same (Arena.node?_apply_shade session.arena root)
  | register base length kind => exact htyped
  | unregister base length => exact htyped
  | settle => exact htyped
  | write address word => exact htyped

/-! ### What is built -/

namespace Heap

variable {heap after : Heap} {issued : Nat} {construction : Construction} {handle : Handle}

/-- The handle that is answered names the node that was asked for, new or not. -/
theorem node?_of_build (hcoherent : heap.store.arena.Coherent issued)
    (hbuild : heap.build construction = .ok (handle, after)) :
    ∃ node, construction.toNode heap.store.widthOf = .ok node ∧
      after.store.arena.node? handle = some node ∧
      Arena.Extends heap.store.arena after.store.arena := by
  cases hnode : construction.toNode heap.store.widthOf with
  | error error => simp [build, hnode] at hbuild
  | ok node =>
      cases hallocate : heap.store.arena.allocate node with
      | error error => simp [build_of_refused hnode hallocate] at hbuild
      | ok answer =>
          obtain ⟨allocation, arena⟩ := answer
          obtain ⟨built, hbuilt, rfl⟩ := build_of_allocated hnode hallocate
          obtain ⟨rfl, rfl⟩ := Prod.mk.inj (Except.ok.inj (hbuilt.symm.trans hbuild))
          refine ⟨node, rfl, hcoherent.node?_of_allocate hallocate, ?_⟩
          -- what extends is stated of requests, and this allocation is one
          rw [← Arena.request_of_ok hallocate]
          exact hcoherent.extends_request node

end Heap

/-- Integers cut down to the same width agree when they differ by a multiple of a power of two. -/
theorem truncated_eq_iff (value other : BitVec 128) (width : UInt32) :
    truncated value width = truncated other width ↔
      value.toNat ≡ other.toNat [MOD 2 ^ min width.toNat 128] := by
  rw [← BitVec.toNat_inj, toNat_truncated, toNat_truncated, Nat.ModEq]

/-- **An integer that is there is answered with its handle to exactly those who ask for it**,
modulo a power of two. -/
theorem Heap.build_integer_iff {heap : Heap} {issued : Nat} {handle : Handle} {value : BitVec 128}
    {width : UInt32} (hcoherent : heap.store.arena.Coherent issued)
    (hnode : heap.store.arena.node? handle =
      some ⟨.integer (truncated value width), [], width⟩)
    (other : BitVec 128) (otherWidth : UInt32) :
    (∃ after, heap.build (.integer other otherWidth) = .ok (handle, after)) ↔
      width = otherWidth ∧ value.toNat ≡ other.toNat [MOD 2 ^ min width.toNat 128] := by
  rw [← truncated_eq_iff]
  constructor
  · rintro ⟨after, hbuild⟩
    obtain ⟨node, hasked, hanswered, hextends⟩ := node?_of_build hcoherent hbuild
    obtain rfl := Except.ok.inj hasked
    -- both the old and the new answer name the node that stands under this handle
    have hsame := Option.some.inj ((hextends handle _ hnode).symm.trans hanswered)
    obtain ⟨hop, -, rfl⟩ := Node.mk.inj hsame
    exact ⟨rfl, Op.integer.inj hop⟩
  · rintro ⟨rfl, hvalue⟩
    rw [hvalue] at hnode
    have hasked : (Construction.integer other width).toNode heap.store.widthOf =
        .ok ⟨.integer (truncated other width), [], width⟩ := rfl
    obtain ⟨after, hbuild, -⟩ := build_of_node? hcoherent hasked rfl (by simp) hnode
    exact ⟨after, hbuild⟩

/-! ### Typed nodes over a whole run -/

namespace Moment

variable {config : Config} {before after moment : Moment}

/-- A step in which no node is asked for as it stands: any other request, or a step of a
collection, which is a step into another stage. -/
inductive BuilderStep : Moment → Moment → Prop
  | request (session : Session) (stage : Stage) (asked : Request) :
      (∀ raw, asked ≠ .build (.exactly raw)) →
      BuilderStep ⟨session, stage⟩ ⟨session.request asked, stage⟩
  | collector {before after : Moment} :
      Step before after → before.stage ≠ after.stage → BuilderStep before after

theorem BuilderStep.step (hstep : BuilderStep before after) : Step before after := by
  cases hstep with
  | request session stage asked _ => exact .request session stage asked
  | collector hstep _ => exact hstep

/-- Some run of such steps leads from an empty heap and some memory to the moment. -/
def BuilderReached (config : Config) (moment : Moment) : Prop :=
  ∃ memory, Relation.ReflTransGen BuilderStep ⟨⟨.empty config, memory⟩, .between⟩ moment

theorem BuilderReached.reached (hreached : moment.BuilderReached config) :
    moment.Reached config := by
  obtain ⟨memory, hsteps⟩ := hreached
  exact ⟨memory, Relation.ReflTransGen.mono (fun _ _ hstep => hstep.step) _ _ hsteps⟩

/-- **Every such step keeps the nodes typed.** -/
theorem Sound.wellTyped_step (hsound : before.Sound) (htyped : before.arena.WellTyped)
    (hstep : BuilderStep before after) : after.arena.WellTyped := by
  obtain ⟨⟨_, hcoherent⟩, -⟩ := hsound.gapless
  cases hstep with
  | request session stage asked hbuilder =>
      exact Session.wellTyped_request htyped hcoherent hbuilder
  | collector hstep hstage =>
      -- a collection builds nothing: the first two steps change no node, the last takes some away
      have hafter := (hsound.step hstep).gapless.2
      cases hstep with
      | request session stage asked => exact absurd rfl hstage
      | begin session => exact htyped.of_same fun _ => rfl
      | scan hscan =>
          cases hsound with
          | scanning scanning hsession =>
              have harena := hsession.arena_afterScan hscan []
              exact htyped.of_same fun handle => congrArg (Arena.node? · handle) harena
      | finish elapsed hfinish =>
          cases hsound with
          | scanned scanning scanned hsession hscan =>
              exact htyped.restrict (hsession.finish hscan hfinish).2 hafter

theorem BuilderReached.wellTyped (hreached : moment.BuilderReached config) :
    moment.arena.WellTyped := by
  obtain ⟨memory, hsteps⟩ := hreached
  induction hsteps with
  | refl => exact Arena.WellTyped.empty _
  | tail hsteps hstep ih =>
      exact Sound.wellTyped_step (BuilderReached.reached ⟨memory, hsteps⟩).sound ih hstep

/-- **Nodes of builders are typed**, at every moment that is reached without asking for a node as
it stands, within collections as between them: the width of every node is what its operation makes
of the widths that its children have at that moment, and the value of an integer fits its width.
The arithmetic of the builders is exact for all arguments, and no step of it wraps.  And while the
handle of an integer stays allocated, another request for an integer is answered with the same
handle exactly if it is for the same width and for the same value modulo the power of two that the
width stands for. -/
theorem builders_type_nodes (hreached : moment.BuilderReached config) :
    moment.arena.WellTyped ∧
      (∀ widthOf construction,
        Construction.toNode widthOf construction =
            (construction.wideNode widthOf).bind WideNode.fit ∧
          construction.StepsExact widthOf) ∧
      ∀ value width handle built later,
        moment.session.heap.build (.integer value width) = .ok (handle, built) →
        Retains handle ⟨{ moment.session with heap := built }, moment.stage⟩ later →
        ∀ other otherWidth,
          (∃ after, later.session.heap.build (.integer other otherWidth) = .ok (handle, after)) ↔
            width = otherWidth ∧ value.toNat ≡ other.toNat [MOD 2 ^ min width.toNat 128] := by
  have hsound := hreached.reached.sound
  obtain ⟨⟨_, hcoherent⟩, -⟩ := hsound.gapless
  refine ⟨hreached.wellTyped, ?_, ?_⟩
  · intro widthOf construction
    exact ⟨construction.toNode_eq widthOf, construction.stepsExact widthOf⟩
  · intro value width handle built later hbuild hretains
    -- the integer is built by a step of the run, so what it leaves is a sound moment again
    have hstep := Step.request moment.session moment.stage (.build (.integer value width))
    simp only [Session.request, hbuild] at hstep
    have hbuilt := hsound.step hstep
    obtain ⟨node, hasked, hnode, -⟩ := Heap.node?_of_build hcoherent hbuild
    obtain rfl := Except.ok.inj hasked
    obtain ⟨⟨_, hlater⟩, -⟩ := (hretains.sound hbuilt).gapless
    exact Heap.build_integer_iff hlater (hretains.node? hbuilt hnode)

theorem BuilderReached.requestAll {session : Session} {stage : Stage}
    (hreached : BuilderReached config ⟨session, stage⟩) (requests : List Request)
    (hbuilders : ∀ asked ∈ requests, ∀ raw, asked ≠ .build (.exactly raw)) :
    BuilderReached config ⟨session.requestAll requests, stage⟩ := by
  induction requests generalizing session with
  | nil => exact hreached
  | cons first rest ih =>
      obtain ⟨hfirst, hrest⟩ := List.forall_mem_cons.mp hbuilders
      obtain ⟨memory, hsteps⟩ := hreached
      exact ih ⟨memory, hsteps.tail (.request session stage first hfirst)⟩ hrest

/-- The bits in the middle of two input bytes. -/
def middleBits : Moment where
  session := Session.requestAll ⟨.empty .default, .zeroed⟩ [
    .build (.input 0), .build (.input 1), .build (.concat ⟨0, 1⟩ ⟨1, 1⟩),
    .build (.extract ⟨2, 1⟩ 11 4)]
  stage := .between

/-- Eight bits are taken from the sixteen of two bytes, and 300 in eight bits is 44, but not in
nine. -/
theorem middleBits_typed :
    middleBits.BuilderReached .default ∧
      middleBits.arena.node? ⟨3, 1⟩ = some ⟨.extract 11 4, [⟨2, 1⟩], 8⟩ ∧
      Typed middleBits.arena.HasWidth ⟨.extract 11 4, [⟨2, 1⟩], 8⟩ ∧
      ∃ built, middleBits.session.heap.build (.integer 300 8) = .ok (⟨4, 1⟩, built) ∧
        (∃ after, built.build (.integer 44 8) = .ok (⟨4, 1⟩, after)) ∧
        ¬ ∃ after, built.build (.integer 300 9) = .ok (⟨4, 1⟩, after) := by
  have hreached : middleBits.BuilderReached .default := by
    refine BuilderReached.requestAll ⟨.zeroed, .refl⟩ _ ?_
    simp
  obtain ⟨htyped, -, hinteger⟩ := builders_type_nodes hreached
  have hnode : middleBits.arena.node? ⟨3, 1⟩ = some ⟨.extract 11 4, [⟨2, 1⟩], 8⟩ := by cbv
  have hfirst : (middleBits.session.heap.build (.integer 300 8)).map Prod.fst =
      .ok ⟨4, 1⟩ := by cbv
  obtain ⟨built, hbuild⟩ : ∃ built,
      middleBits.session.heap.build (.integer 300 8) = .ok (⟨4, 1⟩, built) := by
    cases hanswer : middleBits.session.heap.build (.integer 300 8) with
    | error error =>
        rw [hanswer] at hfirst
        cases hfirst
    | ok answer =>
        obtain ⟨handle, built⟩ := answer
        rw [hanswer] at hfirst
        obtain rfl : handle = ⟨4, 1⟩ := Except.ok.inj hfirst
        exact ⟨built, rfl⟩
  have hsame := hinteger 300 8 ⟨4, 1⟩ built _ hbuild .refl
  refine ⟨hreached, hnode, htyped _ _ hnode, built, hbuild, (hsame 44 8).mpr ?_, ?_⟩
  · exact ⟨rfl, by decide⟩
  · intro hanswered
    exact absurd ((hsame 300 9).mp hanswered).1 (by decide)

end Moment

end ExprHeap
