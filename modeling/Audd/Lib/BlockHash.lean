import Mathlib.Data.Nat.Init
import Mathlib.Data.List.Basic

/-!
# Folding a function over fixed-size blocks

A sequence is cut into blocks of `n` elements and a remainder that is shorter.
Absorbing a sequence in pieces, with the remainder kept in between, gives the
same state as absorbing it at once.
-/

namespace BlockHash

variable {σ β : Type*} (n : ℕ) (compress : σ → List β → σ)

/-- The whole blocks at the front of a sequence. -/
def blocks (xs : List β) : List (List β) :=
  (List.range (xs.length / n)).map fun i => (xs.drop (n * i)).take n

/-- What is left after the whole blocks. -/
def remainder (xs : List β) : List β := xs.drop (n * (xs.length / n))

/-- Fold the blocks of a sequence into a state. -/
def absorb (s : σ) (xs : List β) : σ := (blocks n xs).foldl compress s

variable {n} {compress}

theorem blocks_of_lt {xs : List β} (h : xs.length < n) : blocks n xs = [] := by
  simp only [blocks, Nat.div_eq_of_lt h, List.range_zero, List.map_nil]

theorem remainder_of_lt {xs : List β} (h : xs.length < n) : remainder n xs = xs := by
  simp only [remainder, Nat.div_eq_of_lt h, Nat.mul_zero, List.drop_zero]

theorem absorb_of_lt {xs : List β} (h : xs.length < n) (s : σ) : absorb n compress s xs = s := by
  simp only [absorb, blocks_of_lt h, List.foldl_nil]

theorem length_remainder (xs : List β) : (remainder n xs).length = xs.length % n := by
  simp only [remainder, List.length_drop]
  exact (Nat.mod_eq_sub_mul_div).symm

theorem blocks_append {block : List β} (hn : 0 < n) (hb : block.length = n) (xs : List β) :
    blocks n (block ++ xs) = block :: blocks n xs := by
  have hlen : (block ++ xs).length / n = xs.length / n + 1 := by
    rw [List.length_append, hb, Nat.add_comm, Nat.add_div_right _ hn]
  have hnext : ∀ i, (block ++ xs).drop (n * (i + 1)) = xs.drop (n * i) := by
    intro i
    rw [Nat.mul_succ, Nat.add_comm, ← List.drop_drop, ← hb, List.drop_left]
  simp only [blocks, hlen, List.range_succ_eq_map, List.map_cons, List.map_map, Nat.mul_zero,
    List.drop_zero, Function.comp_def, Nat.succ_eq_add_one, hnext]
  rw [← hb, List.take_left]

theorem remainder_append {block : List β} (hn : 0 < n) (hb : block.length = n) (xs : List β) :
    remainder n (block ++ xs) = remainder n xs := by
  have hlen : (block ++ xs).length / n = xs.length / n + 1 := by
    rw [List.length_append, hb, Nat.add_comm, Nat.add_div_right _ hn]
  have hfront : (block ++ xs).drop n = xs := by
    rw [← hb, List.drop_left]
  rw [remainder, hlen, Nat.mul_succ, Nat.add_comm, ← List.drop_drop, hfront, remainder]

/-- One block at the front is one call of the compression function. -/
theorem absorb_append_block {block : List β} (hn : 0 < n) (hb : block.length = n) (s : σ)
    (xs : List β) :
    absorb n compress s (block ++ xs) = absorb n compress (compress s block) xs := by
  simp only [absorb, blocks_append hn hb, List.foldl_cons]

/-- A sequence is its whole blocks, taken from the front one by one, and a rest. -/
theorem block_induction {motive : List β → Prop} (hn : 0 < n)
    (short : ∀ xs, xs.length < n → motive xs)
    (block : ∀ b xs, b.length = n → motive xs → motive (b ++ xs)) (xs : List β) : motive xs := by
  induction hm : xs.length using Nat.strong_induction_on generalizing xs with
  | _ m ih =>
      by_cases hlt : xs.length < n
      · exact short xs hlt
      · have hb : (xs.take n).length = n := by
          rw [List.length_take]
          omega
        have hrest : (xs.drop n).length < m := by
          rw [List.length_drop]
          omega
        rw [← List.take_append_drop n xs]
        exact block _ _ hb (ih _ hrest _ rfl)

/-- Absorbing in two pieces: the remainder of the first goes in front of the second. -/
theorem absorb_append (hn : 0 < n) (s : σ) (xs ys : List β) :
    absorb n compress s (xs ++ ys) =
      absorb n compress (absorb n compress s xs) (remainder n xs ++ ys) := by
  induction xs using block_induction hn generalizing s with
  | short xs h => rw [absorb_of_lt h, remainder_of_lt h]
  | block b xs hb ih =>
      rw [List.append_assoc, absorb_append_block hn hb, absorb_append_block hn hb,
        remainder_append hn hb, ih]

theorem remainder_append_remainder (hn : 0 < n) (xs ys : List β) :
    remainder n (xs ++ ys) = remainder n (remainder n xs ++ ys) := by
  induction xs using block_induction hn with
  | short xs h => rw [remainder_of_lt h]
  | block b xs hb ih =>
      rw [List.append_assoc, remainder_append hn hb, remainder_append hn hb, ih]

end BlockHash
