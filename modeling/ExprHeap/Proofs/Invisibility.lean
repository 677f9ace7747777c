import ExprHeap.Proofs.Counterparts
import ExprHeap.Proofs.Pauses
import ExprHeap.Proofs.Words

/-!
# Collections are invisible to producers

Two runs of one program, with collections in different places and under different
configurations, go through points that agree: each request has the same answer in
both, and what a producer has at hand denotes the same expressions.  Only the
handles differ, since the one run may have given a slot to a new node that the
other run has not even vacated.

## Strategy

This is a simulation, instruction by instruction (`Agree.step`).  Within a scope
arenas only grow, so what is denoted once stays denoted; a request asks for
counterparts, which `Heap.buildsAlike` answers alike.  Between scopes nothing is
left but the slots, and a pause keeps what these denote (`Session.Keeps`), in each
run by itself.
-/

namespace ExprHeap

/-! ### Related lists and options -/

section Related

variable {α β : Type} {relation weaker : α → β → Prop}

theorem rel_imp (himp : ∀ one other, relation one other → weaker one other) {one : Option α}
    {other : Option β} (hrel : Option.Rel relation one other) : Option.Rel weaker one other := by
  cases hrel with
  | some hrel => exact .some (himp _ _ hrel)
  | none => exact .none

theorem forall₂_concat {ones : List α} {others : List β} {one : α} {other : β}
    (hall : List.Forall₂ relation ones others) (hlast : relation one other) :
    List.Forall₂ relation (ones ++ [one]) (others ++ [other]) :=
  List.rel_append hall (.cons hlast .nil)

/-- What stands at a number is related, if anything stands there. -/
theorem rel_getD_getElem? {ones : List (Option α)} {others : List (Option β)}
    (hall : List.Forall₂ (Option.Rel relation) ones others) (number : Nat) :
    Option.Rel relation (ones[number]?.getD none)
      (others[number]?.getD none) := by
  induction hall generalizing number with
  | nil => exact .none
  | cons hhead _ ih =>
      cases number with
      | zero => exact hhead
      | succ number => exact ih number

theorem rel_mapM {ι : Type} {lookup : ι → Option α} {counterpart : ι → Option β}
    (hlookup : ∀ key, Option.Rel relation (lookup key) (counterpart key)) (keys : List ι) :
    Option.Rel (List.Forall₂ relation) (keys.mapM lookup) (keys.mapM counterpart) := by
  induction keys with
  | nil => exact .some .nil
  | cons key rest ih =>
      have hkey := hlookup key
      rw [List.mapM_cons, List.mapM_cons]
      -- the two lookups matter only by what they answer
      generalize lookup key = one at hkey
      generalize counterpart key = other at hkey
      cases hkey with
      | none => exact .none
      | some hhead =>
          generalize rest.mapM lookup = ones at ih
          generalize rest.mapM counterpart = others at ih
          cases ih with
          | none => exact .none
          | some htail => exact .some (.cons hhead htail)

end Related

/-- Only what is allocated denotes an expression. -/
theorem Arena.contains_of_rel {first second : Arena} {one other : Option Handle}
    (hrel : Option.Rel (SameExpr first second) one other) :
    (∀ handle, one = some handle → first.contains handle = true) ∧
      ∀ handle, other = some handle → second.contains handle = true := by
  cases hrel with
  | none => exact ⟨fun _ hnone => (by cases hnone), fun _ hnone => (by cases hnone)⟩
  | some hsame =>
      obtain ⟨tree, hone, hother⟩ := hsame
      constructor
      · rintro handle ⟨⟩
        exact hone.contains
      · rintro handle ⟨⟩
        exact hother.contains

/-! ### Runs that agree -/

/-- Each of these slots holds null in both sessions, or the same expression. -/
def Session.SlotsAgree (slots : List UInt64) (first second : Session) : Prop :=
  ∀ slot ∈ slots, Option.Rel (Arena.SameExpr first.arena second.arena)
    (Handle.ofWord? (first.memory.read slot)) (Handle.ofWord? (second.memory.read slot))

namespace Point

/-- Two points agree: the last instruction had the same outcome, not for a handle that names
nothing, and what the producer has at hand denotes the same expressions. -/
structure Agree (slots : List UInt64) (first second : Point) : Prop where
  outcome : first.outcome = second.outcome
  valid : ∀ word, first.outcome ≠ .failed (.invalidHandle word)
  locals : List.Forall₂
    (Option.Rel (Arena.SameExpr first.session.arena second.session.arena))
    first.locals second.locals
  slots : Session.SlotsAgree slots first.session second.session

/-- The last instruction did not find the store full. -/
def Fits (point : Point) : Prop :=
  ∀ capacity, point.outcome ≠ .failed (.outOfMemory capacity)

variable {slots : List UInt64} {point first second : Point}

theorem fits_of_outcomes {trace : List Point} {outcomes : List Outcome}
    (htrace : trace.map Point.outcome = outcomes)
    (hfits : ∀ outcome ∈ outcomes, ∀ capacity, outcome ≠ .failed (.outOfMemory capacity)) :
    ∀ point ∈ trace, point.Fits :=
  fun _ hpoint => hfits _ (htrace ▸ List.mem_map_of_mem hpoint)

theorem session_build (point : Point) (construction : Construction) :
    (point.build construction).session = point.session.request (.build construction) := by
  simp only [build, Session.request]
  cases point.session.heap.build construction <;> rfl

theorem ready_step (hready : point.session.Ready slots) (instruction : Instruction) :
    (point.step instruction).session.Ready slots := by
  cases instruction with
  | build builder operands =>
      simp only [step]
      split
      · rw [session_build]
        exact hready.build _
      · exact hready
  | load slot => exact hready
  | store slot source => exact hready.write slot _

theorem ready_finish (hready : point.session.Ready slots) (instructions : List Instruction) :
    (point.finish instructions).session.Ready slots := by
  induction instructions generalizing point with
  | nil => exact hready
  | cons instruction rest ih => exact ih (ready_step hready instruction)

/-! ### One instruction -/

namespace Agree

theorem thing? (hagree : Agree slots first second) (number : Nat) :
    Option.Rel (Arena.SameExpr first.session.arena second.session.arena)
      (first.thing? number) (second.thing? number) :=
  rel_getD_getElem? hagree.locals number

/-- Neither has an answer to an instruction. -/
theorem unanswered (hagree : Agree slots first second) {outcome : Outcome}
    (hvalid : ∀ word, outcome ≠ .failed (.invalidHandle word)) :
    Agree slots { first with outcome := outcome, locals := first.locals ++ [none] }
      { second with outcome := outcome, locals := second.locals ++ [none] } where
  outcome := rfl
  valid := hvalid
  locals := forall₂_concat hagree.locals .none
  slots := hagree.slots

/-- In both something is built, and nothing that was there is lost. -/
theorem built (hagree : Agree slots first second) {one other : Handle} {heap heap' : Heap}
    (hextends : Arena.Extends first.session.arena heap.store.arena)
    (hextends' : Arena.Extends second.session.arena heap'.store.arena)
    (hsame : Arena.SameExpr heap.store.arena heap'.store.arena one other) :
    Agree slots
      { outcome := .built
        session := { first.session with heap := heap }
        locals := first.locals ++ [some one] }
      { outcome := .built
        session := { second.session with heap := heap' }
        locals := second.locals ++ [some other] } where
  outcome := rfl
  valid := by simp
  locals := forall₂_concat
    (hagree.locals.imp fun _ _ => rel_imp fun _ _ => Arena.SameExpr.mono hextends hextends')
    (.some hsame)
  slots slot hslot :=
    rel_imp (fun _ _ => Arena.SameExpr.mono hextends hextends') (hagree.slots slot hslot)

theorem build (hagree : Agree slots first second) (hfirst : first.session.Sound)
    (hsecond : second.session.Sound) {builder : Builder} {operands : List Nat}
    (hfits : (first.step (.build builder operands)).Fits)
    (hfits' : (second.step (.build builder operands)).Fits) :
    Agree slots (first.step (.build builder operands)) (second.step (.build builder operands)) := by
  obtain ⟨_, hcoherent⟩ := hfirst.coherent
  obtain ⟨_, hcoherent'⟩ := hsecond.coherent
  have hoperands := rel_mapM hagree.thing? operands
  simp only [step] at hfits hfits' ⊢
  generalize operands.mapM first.thing? = found at hoperands hfits ⊢
  generalize operands.mapM second.thing? = found' at hoperands hfits' ⊢
  cases hoperands with
  | none => exact hagree.unanswered (by simp)
  | @some ones others hsame =>
  simp only [Option.bind_some] at hfits hfits' ⊢
  cases hbuilder : builder.construction? ones with
  | none =>
      -- the builder takes another number of operands, in both runs
      rw [Builder.construction?_eq_none (Heap.forall₂_sameWidth hsame) hbuilder]
      exact hagree.unanswered (by simp)
  | some construction =>
      obtain ⟨counterpart, hcounterpart, hanswers⟩ :=
        Heap.buildsAlike hcoherent hcoherent' hsame hbuilder
      rw [hbuilder] at hfits
      rw [hcounterpart] at hfits' ⊢
      simp only [Point.build] at hfits hfits' ⊢
      rcases hanswers with ⟨capacity, hfull⟩ | ⟨capacity, hfull⟩ | halike
      · rw [hfull] at hfits
        exact absurd rfl (hfits capacity)
      · rw [hfull] at hfits'
        exact absurd rfl (hfits' capacity)
      · cases halike with
        | refused error hordinary hone hother =>
            rw [hone, hother]
            exact hagree.unanswered (by simpa using hordinary.1)
        | built one other heap heap' hone hother hextends hextends' hexpr =>
            rw [hone, hother]
            exact hagree.built hextends hextends' hexpr

theorem load (hagree : Agree slots first second) {slot : UInt64} (hslot : slot ∈ slots) :
    Agree slots (first.step (.load slot)) (second.step (.load slot)) where
  outcome := rfl
  valid := by simp [step]
  locals := forall₂_concat hagree.locals (hagree.slots slot hslot)
  slots := hagree.slots

/-- A word that is written for a thing is read as that thing. -/
theorem ofWord?_wordOf (hsound : point.session.Sound) (source : Option Nat)
    (hcontains : ∀ handle, source.bind point.thing? = some handle →
      point.session.arena.contains handle = true) :
    Handle.ofWord? (point.wordOf source) = source.bind point.thing? := by
  obtain ⟨_, hcoherent⟩ := hsound.coherent
  unfold wordOf
  cases hthing : source.bind point.thing? with
  | none => rfl
  | some handle =>
      exact Handle.ofWord?_word
        (Marking.generation_ne_zero_of_contains hcoherent (hcontains handle hthing))

theorem store (hagree : Agree slots first second) (hfirst : first.session.Sound)
    (hsecond : second.session.Sound) (slot : UInt64) (source : Option Nat) :
    Agree slots (first.step (.store slot source)) (second.step (.store slot source)) where
  outcome := rfl
  valid := by simp [step]
  locals := hagree.locals
  slots other hother := by
    have hthing : Option.Rel (Arena.SameExpr first.session.arena second.session.arena)
        (source.bind first.thing?) (source.bind second.thing?) := by
      cases source with
      | none => exact .none
      | some number => exact hagree.thing? number
    -- a slot holds a word and not a tree, so what is compared is what the word names
    have hword : Option.Rel (Arena.SameExpr first.session.arena second.session.arena)
        (Handle.ofWord? (first.wordOf source)) (Handle.ofWord? (second.wordOf source)) := by
      obtain ⟨hcontains, hcontains'⟩ := Arena.contains_of_rel hthing
      rw [ofWord?_wordOf hfirst source hcontains, ofWord?_wordOf hsecond source hcontains']
      exact hthing
    simp only [step, Session.request, Memory.read_write]
    split
    · exact hword
    · exact hagree.slots other hother

/-- Two points that agree still do after the next instruction, unless a store is full. -/
theorem step (hagree : Agree slots first second) (hfirst : first.session.Ready slots)
    (hsecond : second.session.Ready slots) {instruction : Instruction}
    (hslot : ∀ slot ∈ instruction.slot?, slot ∈ slots) (hfits : (first.step instruction).Fits)
    (hfits' : (second.step instruction).Fits) :
    Agree slots (first.step instruction) (second.step instruction) := by
  cases instruction with
  | build builder operands => exact hagree.build hfirst.sound hsecond.sound hfits hfits'
  | load slot => exact hagree.load (hslot slot rfl)
  | store slot source => exact hagree.store hfirst.sound hsecond.sound slot source

/-! ### One scope -/

/-- In one scope, two runs that agree at its beginning agree at every point and at its end. -/
theorem trace {instructions : List Instruction}
    (hslots : ∀ instruction ∈ instructions, ∀ slot ∈ instruction.slot?, slot ∈ slots)
    (hagree : Agree slots first second) (hfirst : first.session.Ready slots)
    (hsecond : second.session.Ready slots) (hfits : ∀ point ∈ first.trace instructions, point.Fits)
    (hfits' : ∀ point ∈ second.trace instructions, point.Fits) :
    List.Forall₂ (Agree slots) (first.trace instructions) (second.trace instructions) ∧
      Agree slots (first.finish instructions) (second.finish instructions) := by
  induction instructions generalizing first second with
  | nil => exact ⟨.cons hagree .nil, hagree⟩
  | cons instruction rest ih =>
      have hhead : ∀ point : Point, point.step instruction ∈
          (point.step instruction).trace rest := by
        intro point
        cases rest <;> exact List.mem_cons_self
      simp only [Point.trace, List.forall_mem_cons] at hslots hfits hfits' ⊢
      have hnext := hagree.step hfirst hsecond hslots.1 (hfits.2 _ (hhead first))
        (hfits'.2 _ (hhead second))
      obtain ⟨htrace, hfinish⟩ := ih hslots.2 hnext (ready_step hfirst instruction)
        (ready_step hsecond instruction) hfits.2 hfits'.2
      exact ⟨.cons hagree htrace, hfinish⟩

end Agree

end Point

/-! ### Whole runs -/

namespace Session

variable {slots : List UInt64} {first second session paused : Session}

/-- A pause in each run leaves alone what the slots of both denote. -/
theorem SlotsAgree.of_keeps {first' second' : Session} (hagree : SlotsAgree slots first second)
    (hkeeps : Keeps slots first first') (hkeeps' : Keeps slots second second') :
    SlotsAgree slots first' second' := by
  intro slot hslot
  have hrel := hagree slot hslot
  have hkept := hkeeps.denotes slot hslot
  have hkept' := hkeeps'.denotes slot hslot
  rw [hkeeps.memory, hkeeps'.memory]
  generalize Handle.ofWord? (first.memory.read slot) = one at hrel hkept ⊢
  generalize Handle.ofWord? (second.memory.read slot) = other at hrel hkept' ⊢
  cases hrel with
  | none => exact .none
  | some hsame =>
      obtain ⟨tree, hone, hother⟩ := hsame
      exact .some ⟨tree, hkept _ rfl tree hone, hkept' _ rfl tree hother⟩

/-- When a scope has just been opened there are only the slots to agree. -/
theorem SlotsAgree.openScope (hagree : SlotsAgree slots first second) :
    Point.Agree slots first.openScope second.openScope where
  outcome := rfl
  valid := by simp [Session.openScope]
  locals := .nil
  slots := hagree

theorem produce_nil {schedule : Nat → List Pause} {turn : Nat}
    (hpaused : (schedule turn).foldlM pause session = .ok paused) :
    session.produce schedule turn [] = .ok [paused.openScope] := by
  simp only [produce, hpaused, bind, Except.bind, pure, Except.pure]

theorem produce_cons {schedule : Nat → List Pause} {turn : Nat} {scope : List Instruction}
    {rest : List (List Instruction)} {later : List Point}
    (hpaused : (schedule turn).foldlM pause session = .ok paused)
    (hlater : (paused.openScope.finish scope).session.produce schedule (turn + 1) rest =
      .ok later) :
    session.produce schedule turn (scope :: rest) =
      .ok (paused.openScope.trace scope ++ later) := by
  simp only [produce, hpaused, hlater, bind, Except.bind, pure, Except.pure]

/-- Two runs of a program come to their ends, and agree unless a store is full. -/
theorem produce_agree (schedule schedule' : Nat → List Pause) {program : List (List Instruction)}
    (hslots : ∀ scope ∈ program, ∀ instruction ∈ scope, ∀ slot ∈ instruction.slot?, slot ∈ slots)
    (turn : Nat) (hfirst : first.Ready slots) (hsecond : second.Ready slots) :
    ∃ trace trace', first.produce schedule turn program = .ok trace ∧
      second.produce schedule' turn program = .ok trace' ∧
      (SlotsAgree slots first second → (∀ point ∈ trace, point.Fits) →
        (∀ point ∈ trace', point.Fits) → List.Forall₂ (Point.Agree slots) trace trace') := by
  -- both runs end without conditions; that they agree is an implication, since stores may be full
  induction program generalizing turn first second with
  | nil =>
      obtain ⟨paused, hpaused, -, hkeeps⟩ := hfirst.foldlM_pause (schedule turn)
      obtain ⟨paused', hpaused', -, hkeeps'⟩ := hsecond.foldlM_pause (schedule' turn)
      exact ⟨_, _, produce_nil hpaused, produce_nil hpaused', fun hagree _ _ =>
        .cons (hagree.of_keeps hkeeps hkeeps').openScope .nil⟩
  | cons scope rest ih =>
      obtain ⟨paused, hpaused, hready, hkeeps⟩ := hfirst.foldlM_pause (schedule turn)
      obtain ⟨paused', hpaused', hready', hkeeps'⟩ := hsecond.foldlM_pause (schedule' turn)
      have hopen : paused.openScope.session.Ready slots := hready
      have hopen' : paused'.openScope.session.Ready slots := hready'
      obtain ⟨hscope, hrest⟩ := List.forall_mem_cons.mp hslots
      obtain ⟨later, later', hlater, hlater', hagrees⟩ :=
        ih hrest (turn + 1) (Point.ready_finish hopen scope) (Point.ready_finish hopen' scope)
      refine ⟨_, _, produce_cons hpaused hlater, produce_cons hpaused' hlater', ?_⟩
      intro hagree hfits hfits'
      rw [List.forall_mem_append] at hfits hfits'
      -- at the beginning of the next scope there are again only the slots
      obtain ⟨hnow, hend⟩ := (hagree.of_keeps hkeeps hkeeps').openScope.trace hscope hopen hopen'
        hfits.1 hfits'.1
      exact List.rel_append hnow (hagrees hend.slots hfits.2 hfits'.2)

/-- **Collections are invisible to producers.**  Let the regions be registered with an empty heap,
all their slots null, and let a program use no other slots.  Under any two configurations and
schedules its runs come to their ends, and unless a store is full they agree at every point. -/
theorem collections_invisible {regions : List Region}
    (hmake : ∀ region ∈ regions, Region.make region.base region.length region.kind = .ok region)
    {memory : Memory} (hnull : ∀ slot ∈ slotsIn regions, memory.read slot = 0)
    {program : List (List Instruction)}
    (hslots : ∀ scope ∈ program, ∀ instruction ∈ scope, ∀ slot ∈ instruction.slot?,
      slot ∈ slotsIn regions)
    (config config' : Config) (schedule schedule' : Nat → List Pause) :
    ∃ trace trace',
      (withRegions config memory regions).produce schedule 0 program = .ok trace ∧
      (withRegions config' memory regions).produce schedule' 0 program = .ok trace' ∧
      ((∀ point ∈ trace, point.Fits) → (∀ point ∈ trace', point.Fits) →
        List.Forall₂ (Point.Agree (slotsIn regions)) trace trace') := by
  have hready := ready_withRegions config memory hmake
  have hready' := ready_withRegions config' memory hmake
  obtain ⟨trace, trace', htrace, htrace', hagrees⟩ :=
    produce_agree schedule schedule' hslots 0 hready hready'
  refine ⟨trace, trace', htrace, htrace', hagrees ?_⟩
  intro slot hslot
  rw [memory_withRegions, memory_withRegions, hnull slot hslot]
  exact .none

/-! ### A store that is too small without collections -/

/-- A region with a single slot. -/
def oneSlot : List Region := [⟨8, 1, .other⟩]

/-- This scope stores the negation of a byte, and leaves another byte behind that no slot names. -/
def leavesByte : List Instruction :=
  [.build (.input 0) [], .build (.unary .neg) [0], .store 8 (some 1), .build (.input 1) []]

/-- This scope adds a third byte to what the slot holds. -/
def addsByte : List Instruction :=
  [.load 8, .build (.input 2) [], .build (.binary .add) [0, 1], .store 8 (some 2)]

/-- Four nodes at most. -/
def roomForFour : Config := { Config.default with maxNodes := 4, scanChunk := 2 }

/-- One collection, between the first two scopes. -/
def collectOnce (turn : Nat) : List Pause := if turn = 1 then [.collect 0] else []

/-- The session between the two scopes. -/
def betweenScopes : Session :=
  ((withRegions roomForFour .zeroed oneSlot).openScope.finish leavesByte).session

/-- The heap of that session when a collection has read the slot. -/
def scannedBetweenScopes : Heap :=
  betweenScopes.begun.heap.settle.note
    ([.root ⟨1, 1⟩].map .sighted ++ [.scanned ⟨1, 1, 1, 0, 2⟩])

/-- What the slot keeps alive: the negation and the byte below it. -/
def liveBetweenScopes : LiveSet := ⟨#[1, 1], 2⟩

/-- What is left of the collection between the two scopes when the slot has been read. -/
def sweptBetweenScopes : Except Fault (Report × Heap) :=
  scannedBetweenScopes.finishCycle betweenScopes.heap.beginCycle.1 liveBetweenScopes
    ⟨1, 1, 1, 0, 2⟩ 0

theorem collect_betweenScopes :
    betweenScopes.heap.collect betweenScopes.memory 0 = sweptBetweenScopes := by
  have hread : RootScan.ofRegions betweenScopes.begun.heap.store.arena betweenScopes.memory
      betweenScopes.begun.heap.config.scanChunk betweenScopes.begun.heap.snapshotRegions =
        .ok ⟨⟨⟨#[0, 1], 1⟩, #[⟨1, 1⟩]⟩, #[.root ⟨1, 1⟩], 1, 1, 0⟩ := by cbv
  -- one burst marks the byte below the negation, and there is nothing below that
  have hexpand : Marking.expand betweenScopes.begun.heap.store.arena
      (max betweenScopes.begun.heap.config.scanChunk 1) 0 ⟨⟨#[0, 1], 1⟩, #[⟨1, 1⟩]⟩ =
        .ok (2, ⟨⟨#[1, 1], 2⟩, #[⟨1, 1⟩, ⟨0, 1⟩]⟩) := by cbv
  have hclose := Marking.close_of_expand (by decide) hexpand
    (Marking.close_of_passed (Nat.le_refl 2))
  exact Heap.collect_of_scan (Heap.scan_of_read hread (RootScan.finish_of_close hclose)) 0

/-- The arena that the sweep leaves. -/
def arenaBetweenScopes : Arena :=
  (scannedBetweenScopes.store.arena.reclaimAll betweenScopes.heap.beginCycle.1.epoch
    liveBetweenScopes.contains (List.range' 0 betweenScopes.heap.beginCycle.1.highWater)).endCycle

/-- What the second scope comes through is decided by that arena alone. -/
theorem outcomes_of_arena {heap : Heap} (harena : heap.store.arena = arenaBetweenScopes) :
    ((openScope { betweenScopes with heap := heap }).trace addsByte).map Point.outcome =
      [.opened, .loaded, .built, .built, .stored] := by
  obtain ⟨config, ⟨arena, allocations, internHits, frees⟩, registry, metrics, waiting, journal⟩ :=
    heap
  cases harena
  cbv

theorem outcomes_after_collection : ∃ report heap, sweptBetweenScopes = .ok (report, heap) ∧
    ((openScope { betweenScopes with heap := heap }).trace addsByte).map Point.outcome =
      [.opened, .loaded, .built, .built, .stored] := by
  have hlive : ∀ handle ∈ liveBetweenScopes.toList, arenaBetweenScopes.contains handle = true := by
    have hlist : liveBetweenScopes.toList = [⟨0, 1⟩, ⟨1, 1⟩] := by decide
    have hbyte : arenaBetweenScopes.contains ⟨0, 1⟩ = true := by cbv
    have hnegation : arenaBetweenScopes.contains ⟨1, 1⟩ = true := by cbv
    simp [hlist, hbyte, hnegation]
  obtain ⟨report, heap, hfinish, harena, -⟩ := scannedBetweenScopes.finishCycle_ok
    betweenScopes.heap.beginCycle.1 ⟨1, 1, 1, 0, 2⟩ 0 hlive
  exact ⟨report, heap, hfinish, outcomes_of_arena harena⟩

theorem outcomes_with_collection {trace : List Point}
    (htrace : (withRegions roomForFour .zeroed oneSlot).produce collectOnce 0
      [leavesByte, addsByte] = .ok trace) :
    trace.map Point.outcome = [.opened, .built, .built, .stored, .built,
      .opened, .loaded, .built, .built, .stored, .opened] := by
  obtain ⟨report, heap, hswept, hlater⟩ := outcomes_after_collection
  have hpause : (collectOnce 1).foldlM pause betweenScopes =
      .ok { betweenScopes with heap := heap } := by
    have hcollect := collect_betweenScopes.trans hswept
    simp only [collectOnce, if_true, List.foldlM_cons, List.foldlM_nil, pause, hcollect,
      Except.map, bind, Except.bind, pure, Except.pure]
  -- the run is put together from its two scopes and evaluated scope by scope
  have hrun : (withRegions roomForFour .zeroed oneSlot).produce collectOnce 0
        [leavesByte, addsByte] =
      .ok ((withRegions roomForFour .zeroed oneSlot).openScope.trace leavesByte ++
        ((openScope { betweenScopes with heap := heap }).trace addsByte ++
          [((openScope { betweenScopes with heap := heap }).finish addsByte).session.openScope])) :=
    produce_cons rfl (produce_cons hpause (produce_nil rfl))
  have hfirst : ((withRegions roomForFour .zeroed oneSlot).openScope.trace leavesByte).map
      Point.outcome = [.opened, .built, .built, .stored, .built] := by cbv
  rw [Except.ok.inj (htrace.symm.trans hrun), List.map_append, List.map_append, hfirst, hlater]
  rfl

theorem outcomes_without_collection {trace : List Point}
    (htrace : (withRegions .default .zeroed oneSlot).produce (fun _ => []) 0
      [leavesByte, addsByte] = .ok trace) :
    trace.map Point.outcome = [.opened, .built, .built, .stored, .built,
      .opened, .loaded, .built, .built, .stored, .opened] := by
  have hrun : ((withRegions .default .zeroed oneSlot).produce (fun _ => []) 0
      [leavesByte, addsByte]).map (List.map Point.outcome) =
    .ok [.opened, .built, .built, .stored, .built,
      .opened, .loaded, .built, .built, .stored, .opened] := by cbv
  rw [htrace] at hrun
  exact Except.ok.inj hrun

/-- The program allocates five nodes, but a collection between its scopes makes room: with four
places it goes as it does in a large store without a collection. -/
theorem collections_invisible_in_little_room :
    ∃ trace trace',
      (withRegions .default .zeroed oneSlot).produce (fun _ => []) 0 [leavesByte, addsByte] =
        .ok trace ∧
      (withRegions roomForFour .zeroed oneSlot).produce collectOnce 0 [leavesByte, addsByte] =
        .ok trace' ∧
      List.Forall₂ (Point.Agree (slotsIn oneSlot)) trace trace' := by
  have hmake : ∀ region ∈ oneSlot,
      Region.make region.base region.length region.kind = .ok region := by decide
  have hnull : ∀ slot ∈ slotsIn oneSlot, Memory.zeroed.read slot = 0 := by
    simp [Memory.read, Memory.zeroed]
  have hslotsIn : slotsIn oneSlot = [8] := by cbv
  have hslots : ∀ scope ∈ [leavesByte, addsByte], ∀ instruction ∈ scope,
      ∀ slot ∈ instruction.slot?, slot ∈ slotsIn oneSlot := by
    simp [leavesByte, addsByte, Instruction.slot?, hslotsIn]
  obtain ⟨trace, trace', htrace, htrace', hagree⟩ :=
    collections_invisible hmake hnull hslots .default roomForFour (fun _ => []) collectOnce
  refine ⟨trace, trace', htrace, htrace', hagree ?_ ?_⟩
  · exact Point.fits_of_outcomes (outcomes_without_collection htrace) (by simp)
  · exact Point.fits_of_outcomes (outcomes_with_collection htrace') (by simp)

end Session

end ExprHeap
