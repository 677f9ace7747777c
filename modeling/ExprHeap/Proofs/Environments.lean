import ExprHeap.Proofs.Singles

/-!
# Reading the environment

A configuration is read from five variables, in a fixed order.  The reading succeeds exactly if
every variable that is set holds a text that its setting accepts, and then each field is what its
own variable says; otherwise the first variable that does not is reported.

It is reported with its text, but for one case.  A growth ratio has two ways to go wrong: its text
may be no numeral, or its number may be below one or not finite.  In the second case the number is
written anew, so `0.50` is reported as `0.5` and `1e39` as `inf`.

## Strategy

`Reading` lists what reading one variable can come to.  Each of the two readers comes to one of
these (`reading_readCount`, `reading_readGrowthRatio`), and the configuration is put together from
five such readings (`outcome_ofLookup`).
-/

namespace ExprHeap

/-- The texts that a setting can be read from.  Blanks around them aside, a growth ratio is the
numeral of a finite number from one up, and everything else is a count of at most 64 bits. -/
def Setting.Accepts (setting : Setting) (text : String) : Prop :=
  match setting with
  | .growthRatio => ∃ ratio value, Ieee.Single.read? (Text.trim text.toList) = some ratio ∧
      ratio.value? = some value ∧ 1 ≤ value
  | .collectThreshold | .maxNodes | .scanChunk | .reclaimBatch =>
      ∃ count, Text.natural? UInt64.size (Text.trim text.toList) = some count

namespace Config

variable {lookup : Setting → Option String} {setting : Setting}

/-- The setting's variable is set to a text that it does not accept. -/
def Offends (lookup : Setting → Option String) (setting : Setting) : Prop :=
  ∃ text, lookup setting = some text ∧ ¬ setting.Accepts text

/-- The setting is the first, in the order of reading, whose variable holds a text that it does
not accept. -/
structure FirstOffending (lookup : Setting → Option String) (setting : Setting) (text : String) :
    Prop where
  lookup_eq : lookup setting = some text
  not_accepts : ¬ setting.Accepts text
  earlier : ∃ before after, Setting.all = before ++ setting :: after ∧
    ∀ other ∈ before, ¬ Offends lookup other

/-- The text by which a variable is reported. -/
def reported (setting : Setting) (text : String) : String :=
  match setting with
  | .growthRatio =>
    match Ieee.Single.read? (Text.trim text.toList) with
    | some ratio => ratio.text
    | none => text
  | .collectThreshold | .maxNodes | .scanChunk | .reclaimBatch => text

/-- A field follows the variable of its setting: it is the default if the variable is not set, and
otherwise the value of its text, brought within bounds. -/
structure Follows {α β : Type} (lookup : Setting → Option String) (setting : Setting)
    (read? : List Char → Option α) (bounded : α → β) (default field : β) : Prop where
  unset : lookup setting = none → field = default
  set : ∀ text, lookup setting = some text →
    ∃ value, read? (Text.trim text.toList) = some value ∧ field = bounded value

/-- Every field follows the variable of its own setting. -/
structure Reflects (config : Config) (lookup : Setting → Option String) : Prop where
  collectThreshold : Follows lookup .collectThreshold (Text.natural? UInt64.size) id
    default.collectThreshold config.collectThreshold
  growthRatio : Follows lookup .growthRatio Ieee.Single.read? id
    default.growthRatio config.growthRatio
  maxNodes : Follows lookup .maxNodes (Text.natural? UInt64.size) (min Handle.indexBound)
    default.maxNodes config.maxNodes
  scanChunk : Follows lookup .scanChunk (Text.natural? UInt64.size) (max 1)
    default.scanChunk config.scanChunk
  reclaimBatch : Follows lookup .reclaimBatch (Text.natural? UInt64.size) (max 1)
    default.reclaimBatch config.reclaimBatch

/-! ### Reading one variable -/

/-- What reading a variable can come to. -/
inductive Reading {α : Type} (lookup : Setting → Option String) (setting : Setting)
    (read? : List Char → Option α) : Except HeapError (Option α) → Prop
  | unset : lookup setting = none → Reading lookup setting read? (.ok none)
  | read {text : String} {value : α} : lookup setting = some text → setting.Accepts text →
      read? (Text.trim text.toList) = some value → Reading lookup setting read? (.ok (some value))
  | refused {text : String} : lookup setting = some text → ¬ setting.Accepts text →
      Reading lookup setting read? (.error (.invalidConfig setting (reported setting text)))

section ReadSetting

variable {α : Type} {read? : List Char → Option α} {text : String}

theorem readSetting_unset (hunset : lookup setting = none) :
    readSetting lookup read? setting = .ok none := by
  simp only [readSetting, hunset]

theorem readSetting_read {value : α} (hset : lookup setting = some text)
    (hread : read? (Text.trim text.toList) = some value) :
    readSetting lookup read? setting = .ok (some value) := by
  simp only [readSetting, hset, hread]

theorem readSetting_unreadable (hset : lookup setting = some text)
    (hread : read? (Text.trim text.toList) = none) :
    readSetting lookup read? setting = .error (.invalidConfig setting text) := by
  simp only [readSetting, hset, hread]

end ReadSetting

/-- A setting that is no growth ratio accepts the counts. -/
theorem accepts_iff_of_ne (hsetting : setting ≠ .growthRatio) (text : String) :
    setting.Accepts text ↔
      ∃ count, Text.natural? UInt64.size (Text.trim text.toList) = some count := by
  cases setting with
  | growthRatio => exact absurd rfl hsetting
  | collectThreshold | maxNodes | scanChunk | reclaimBatch => exact Iff.rfl

theorem reported_of_ne (hsetting : setting ≠ .growthRatio) (text : String) :
    reported setting text = text := by
  cases setting with
  | growthRatio => exact absurd rfl hsetting
  | collectThreshold | maxNodes | scanChunk | reclaimBatch => rfl

theorem reading_readCount (lookup : Setting → Option String) (hsetting : setting ≠ .growthRatio) :
    Reading lookup setting (Text.natural? UInt64.size) (readCount lookup setting) := by
  unfold readCount
  cases hset : lookup setting with
  | none =>
      rw [readSetting_unset hset]
      exact .unset hset
  | some text =>
    cases hread : Text.natural? UInt64.size (Text.trim text.toList) with
    | none =>
        have hrefused : ¬ setting.Accepts text := by
          rw [accepts_iff_of_ne hsetting, hread]
          rintro ⟨_, ⟨⟩⟩
        -- of a count that cannot be read the text itself is reported
        have hreading : Reading lookup setting (Text.natural? UInt64.size) _ :=
          .refused hset hrefused
        rwa [readSetting_unreadable hset hread, ← reported_of_ne hsetting text]
    | some count =>
        rw [readSetting_read hset hread]
        exact .read hset ((accepts_iff_of_ne hsetting text).mpr ⟨count, hread⟩) hread

theorem reading_readGrowthRatio (lookup : Setting → Option String) :
    Reading lookup .growthRatio Ieee.Single.read? (readGrowthRatio lookup) := by
  unfold readGrowthRatio
  cases hset : lookup .growthRatio with
  | none =>
      rw [readSetting_unset hset]
      exact .unset hset
  | some text =>
    cases hread : Ieee.Single.read? (Text.trim text.toList) with
    | none =>
        have hrefused : ¬ Setting.growthRatio.Accepts text := by
          rintro ⟨ratio, value, hratio, -⟩
          rw [hread] at hratio
          cases hratio
        have hreading : Reading lookup .growthRatio Ieee.Single.read? _ :=
          .refused hset hrefused
        rw [readSetting_unreadable hset hread]
        simpa only [reported, hread] using hreading
    | some ratio =>
        rw [readSetting_read hset hread]
        dsimp only
        by_cases hratio : ratio.isGrowthRatio = true
        · obtain ⟨value, hvalue, hle⟩ := ratio.isGrowthRatio_iff.mp hratio
          rw [if_pos hratio]
          exact .read hset ⟨ratio, value, hread, hvalue, hle⟩ hread
        · -- a number, but none to grow by: the number is reported, not the text
          have hrefused : ¬ Setting.growthRatio.Accepts text := by
            rintro ⟨other, value, hother, hvalue, hle⟩
            obtain rfl := Option.some.inj (hread.symm.trans hother)
            exact hratio (ratio.isGrowthRatio_iff.mpr ⟨value, hvalue, hle⟩)
          have hreading : Reading lookup .growthRatio Ieee.Single.read? _ :=
            .refused hset hrefused
          rw [if_neg hratio]
          simpa only [reported, hread] using hreading

namespace Reading

variable {α β : Type} {read? : List Char → Option α}

theorem not_offends {found : Option α} (hreading : Reading lookup setting read? (.ok found)) :
    ¬ Offends lookup setting := by
  rintro ⟨text, hset, hrefused⟩
  cases hreading with
  | unset hunset =>
      rw [hunset] at hset
      cases hset
  | read hother haccepts _ =>
      obtain rfl := Option.some.inj (hother.symm.trans hset)
      exact hrefused haccepts

theorem follows {found : Option α} (hreading : Reading lookup setting read? (.ok found))
    (bounded : α → β) (default : β) :
    Follows lookup setting read? bounded default ((found.map bounded).getD default) := by
  cases hreading with
  | unset hunset =>
      refine ⟨fun _ => rfl, fun text hset => ?_⟩
      rw [hunset] at hset
      cases hset
  | read hset _ hread =>
      refine ⟨fun hunset => ?_, fun text hother => ?_⟩
      · rw [hunset] at hset
        cases hset
      · obtain rfl := Option.some.inj (hset.symm.trans hother)
        exact ⟨_, hread, rfl⟩

end Reading

/-! ### Reading them all -/

/-- What reading the configuration can come to. -/
inductive Outcome (lookup : Setting → Option String) : Except HeapError Config → Prop
  | read {config : Config} : config.Reflects lookup → (∀ setting, ¬ Offends lookup setting) →
      Outcome lookup (.ok config)
  | refused {setting : Setting} {text : String} : FirstOffending lookup setting text →
      Outcome lookup (.error (.invalidConfig setting (reported setting text)))

/-- With the settings before it read, one setting is read, and the rest follows, or it is the first
to offend. -/
theorem Reading.bind {α : Type} {read? : List Char → Option α}
    {first : Except HeapError (Option α)} {rest : Option α → Except HeapError Config}
    (hreading : Reading lookup setting read? first) (before : List Setting) {after : List Setting}
    (hall : Setting.all = before ++ setting :: after)
    (hbefore : ∀ other ∈ before, ¬ Offends lookup other)
    (hrest : ∀ found, Reading lookup setting read? (.ok found) → Outcome lookup (rest found)) :
    Outcome lookup (first >>= rest) := by
  cases hreading with
  | unset hunset => exact hrest _ (.unset hunset)
  | read hset haccepts hread => exact hrest _ (.read hset haccepts hread)
  | refused hset hrefused => exact .refused ⟨hset, hrefused, before, after, hall, hbefore⟩

theorem outcome_ofLookup (lookup : Setting → Option String) : Outcome lookup (ofLookup lookup) := by
  unfold ofLookup
  -- the settings are read in this order, and each is reached only if those before it do not offend
  refine (reading_readCount lookup (by decide)).bind [] rfl
    (List.forall_mem_nil _) fun collectThreshold hcollectThreshold => ?_
  refine (reading_readGrowthRatio lookup).bind [_] rfl ?_
    fun growthRatio hgrowthRatio => ?_
  · simpa using hcollectThreshold.not_offends
  refine (reading_readCount lookup (by decide)).bind [_, _] rfl ?_
    fun maxNodes hmaxNodes => ?_
  · simpa using ⟨hcollectThreshold.not_offends, hgrowthRatio.not_offends⟩
  refine (reading_readCount lookup (by decide)).bind [_, _, _] rfl ?_
    fun scanChunk hscanChunk => ?_
  · simpa using ⟨hcollectThreshold.not_offends, hgrowthRatio.not_offends, hmaxNodes.not_offends⟩
  refine (reading_readCount lookup (by decide)).bind [_, _, _, _] rfl ?_
    fun reclaimBatch hreclaimBatch => ?_
  · simpa using ⟨hcollectThreshold.not_offends, hgrowthRatio.not_offends,
      hmaxNodes.not_offends, hscanChunk.not_offends⟩
  refine .read ?_ fun setting => ?_
  · exact
      { collectThreshold := by simpa using hcollectThreshold.follows id default.collectThreshold
        growthRatio := by simpa using hgrowthRatio.follows id default.growthRatio
        maxNodes := hmaxNodes.follows _ _
        scanChunk := hscanChunk.follows _ _
        reclaimBatch := hreclaimBatch.follows _ _ }
  · cases setting with
    | collectThreshold => exact hcollectThreshold.not_offends
    | growthRatio => exact hgrowthRatio.not_offends
    | maxNodes => exact hmaxNodes.not_offends
    | scanChunk => exact hscanChunk.not_offends
    | reclaimBatch => exact hreclaimBatch.not_offends

/-- A field that follows its variable is within the bounds of its values. -/
theorem Follows.bounds {α β : Type} {read? : List Char → Option α} {bounded : α → β}
    {default field : β} (hfollows : Follows lookup setting read? bounded default field)
    (within : β → Prop) (hdefault : within default) (hbounded : ∀ value, within (bounded value)) :
    within field := by
  cases hset : lookup setting with
  | none => exact hfollows.unset hset ▸ hdefault
  | some text =>
      obtain ⟨value, -, hfield⟩ := hfollows.set text hset
      exact hfield ▸ hbounded value

/-- **Exactly the environments without an offending variable are read, and the others are reported
by the first.**  What is read reflects every variable in its own field and keeps the fields within
their bounds.  What is reported is the first offending variable, with its very text, unless that is
the numeral of a number that is no growth ratio: then it is the number's own text. -/
theorem ofLookup_reads_or_reports (lookup : Setting → Option String) :
    ((∃ config, ofLookup lookup = .ok config) ↔
      ∀ setting text, lookup setting = some text → setting.Accepts text) ∧
    (∀ config, ofLookup lookup = .ok config → config.Reflects lookup ∧
      config.maxNodes ≤ 2 ^ 32 ∧ 1 ≤ config.scanChunk ∧ 1 ≤ config.reclaimBatch) ∧
    ∀ error, ofLookup lookup = .error error →
      ∃ setting text value, FirstOffending lookup setting text ∧
        error = .invalidConfig setting value ∧
        ((setting = .growthRatio → Ieee.Single.read? (Text.trim text.toList) = none) →
          value = text) ∧
        ∀ number, setting = .growthRatio →
          Ieee.Single.read? (Text.trim text.toList) = some number → value = number.text := by
  have houtcome := outcome_ofLookup lookup
  -- the outcome is all that is needed of how the settings are read
  generalize ofLookup lookup = result at houtcome
  cases houtcome with
  | read hreflects hnone =>
      refine ⟨⟨fun _ setting text hset => ?_, fun _ => ⟨_, rfl⟩⟩, ?_, ?_⟩
      · by_contra hrefused
        exact hnone setting ⟨text, hset, hrefused⟩
      · rintro config ⟨⟩
        refine ⟨hreflects, ?_, ?_, ?_⟩
        · exact hreflects.maxNodes.bounds (· ≤ 2 ^ 32) (by decide)
            fun value => Nat.min_le_left _ _
        · exact hreflects.scanChunk.bounds (1 ≤ ·) (by decide)
            fun value => Nat.le_max_left _ _
        · exact hreflects.reclaimBatch.bounds (1 ≤ ·) (by decide)
            fun value => Nat.le_max_left _ _
      · rintro error ⟨⟩
  | @refused setting text hfirst =>
      refine ⟨⟨(by rintro ⟨_, ⟨⟩⟩), fun hall => ?_⟩, ?_, ?_⟩
      · exact absurd (hall _ _ hfirst.lookup_eq) hfirst.not_accepts
      · rintro config ⟨⟩
      · rintro error ⟨⟩
        refine ⟨setting, text, _, hfirst, rfl, fun hunread => ?_, ?_⟩
        · by_cases hsetting : setting = .growthRatio
          · subst hsetting
            simp only [reported, hunread rfl]
          · exact reported_of_ne hsetting text
        · rintro number rfl hread
          simp only [reported, hread]

/-- An environment in which only the growth ratio is set, to one half with a needless zero. -/
def halfWithZero : Setting → Option String
  | .growthRatio => some "0.50"
  | _ => none

/-- A growth ratio of `0.50` is reported, rightly, but with a text that its variable never held. -/
theorem growth_ratio_reported_as_number :
    FirstOffending halfWithZero .growthRatio "0.50" ∧
      ofLookup halfWithZero = .error (.invalidConfig .growthRatio "0.5") ∧
      ¬ ∃ setting text, FirstOffending halfWithZero setting text ∧
        ofLookup halfWithZero = .error (.invalidConfig setting text) := by
  have hreported : ofLookup halfWithZero = .error (.invalidConfig .growthRatio "0.5") := by decide
  have hrefused : ¬ Setting.growthRatio.Accepts "0.50" := by
    rintro ⟨ratio, value, hread, hvalue, hle⟩
    have hhalf : Ieee.Single.read? (Text.trim "0.50".toList) = some ⟨0x3F000000⟩ := by decide
    obtain rfl := Option.some.inj (hhalf.symm.trans hread)
    exact absurd (Ieee.Single.isGrowthRatio_iff _ |>.mpr ⟨value, hvalue, hle⟩) (by decide)
  refine ⟨⟨rfl, hrefused, [_], _, rfl, ?_⟩, hreported, ?_⟩
  · rintro other hother ⟨text, hset, -⟩
    obtain rfl := List.mem_singleton.mp hother
    cases hset
  · rintro ⟨setting, text, hfirst, hother⟩
    rw [hreported] at hother
    cases hother
    exact absurd hfirst.lookup_eq (by decide)

end Config

end ExprHeap
