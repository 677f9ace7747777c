import ExprHeap.Handle
import ExprHeap.Memory
import Std.Data.HashMap.Lemmas

/-!
# Words in slots

The word of a handle gives the handle back, since no generation is zero, and what
has been written into a slot is what is read from it.
-/

namespace ExprHeap

namespace Handle

theorem toNat_word (handle : Handle) :
    handle.word.toNat = handle.generation.toNat * UInt32.size + handle.index.toNat := by
  have hindex : handle.index.toNat < 2 ^ 32 := handle.index.toNat_lt
  have hgeneration : handle.generation.toNat < 2 ^ 32 := handle.generation.toNat_lt
  -- the generation is moved out of the way of the index, and nothing of it is lost
  have hshift : handle.generation.toNat <<< 32 % 2 ^ 64 = handle.generation.toNat <<< 32 := by
    apply Nat.mod_eq_of_lt
    rw [Nat.shiftLeft_eq]
    omega
  calc handle.word.toNat
      = handle.generation.toNat <<< 32 % 2 ^ 64 ||| handle.index.toNat := by
        simp [word, UInt64.toNat_or, UInt64.toNat_shiftLeft]
    _ = handle.generation.toNat <<< 32 + handle.index.toNat := by
        rw [hshift, Nat.shiftLeft_add_eq_or_of_lt hindex]
    _ = handle.generation.toNat * UInt32.size + handle.index.toNat := by
        rw [Nat.shiftLeft_eq]

theorem ofWord?_word {handle : Handle} (hgeneration : handle.generation ≠ 0) :
    ofWord? handle.word = some handle := by
  have hpos : handle.generation.toNat ≠ 0 := fun hzero =>
    hgeneration (UInt32.toNat_inj.mp hzero)
  have hword : handle.word.toNat = handle.generation.toNat * 2 ^ 32 + handle.index.toNat :=
    handle.toNat_word
  have hindexBound : handle.index.toNat < 2 ^ 32 := handle.index.toNat_lt
  have hgenerationBound : handle.generation.toNat < 2 ^ 32 := handle.generation.toNat_lt
  have hnonzero : handle.word ≠ 0 := by
    intro hzero
    rw [hzero, UInt64.toNat_zero] at hword
    omega
  have hindex : handle.word.toUInt32 = handle.index := by
    apply UInt32.toNat_inj.mp
    rw [UInt64.toNat_toUInt32, hword]
    omega
  have hgenerationWord : (handle.word >>> 32).toUInt32 = handle.generation := by
    apply UInt32.toNat_inj.mp
    rw [UInt64.toNat_toUInt32, UInt64.toNat_shiftRight, hword]
    simp [Nat.shiftRight_eq_div_pow]
    omega
  rw [ofWord?, if_neg hnonzero, hindex, hgenerationWord]

end Handle

namespace Memory

theorem read_write (memory : Memory) (address word other : UInt64) :
    (memory.write address word).read other =
      if address = other then word else memory.read other := by
  unfold read write
  rw [Std.HashMap.getElem?_insert]
  by_cases hsame : address = other
  · simp [hsame]
  · simp [hsame]

end Memory

end ExprHeap
