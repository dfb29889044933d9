import Mathlib.Algebra.Group.Nat.Defs
import Mathlib.Tactic.Common

/-!
# Bytes in memory

A memory gives a byte for each address. Blocks of bytes are read and written at an address; an integer of
`n` bytes is stored with its lowest byte first.

What is read after a write: inside the block that was written, a part of it (`read_write`); elsewhere, what was
there before (`read_write_of_disjoint`).
-/

abbrev Memory := ℕ → UInt8

namespace Memory

variable {m : Memory} {a b n k x v : ℕ} {bs : List UInt8}

def write (m : Memory) (a : ℕ) (bs : List UInt8) : Memory := fun x =>
  if a ≤ x then (bs[x - a]?).getD (m x) else m x

def read (m : Memory) (a n : ℕ) : List UInt8 := (List.range n).map fun i => m (a + i)

/-- The lowest `n` bytes of a number. -/
def bytesLE : ℕ → ℕ → List UInt8
  | 0, _ => []
  | n + 1, v => UInt8.ofNat v :: bytesLE n (v / 256)

def ofBytesLE : List UInt8 → ℕ
  | [] => 0
  | b :: bs => b.toNat + 256 * ofBytesLE bs

def store (m : Memory) (a n v : ℕ) : Memory := m.write a (bytesLE n v)

def load (m : Memory) (a n : ℕ) : ℕ := ofBytesLE (m.read a n)

/-- The addresses from `a` on, `n` of them, are as before. -/
def Outside (m m' : Memory) (a n : ℕ) : Prop := ∀ x, x < a ∨ a + n ≤ x → m' x = m x

/-! ### Blocks -/

theorem length_read : (m.read a n).length = n := by
  unfold read
  rw [List.length_map, List.length_range]

theorem getElem_read {i : ℕ} (h : i < (m.read a n).length) : (m.read a n)[i] = m (a + i) := by
  simp only [read, List.getElem_map, List.getElem_range]

theorem read_add : m.read a (n + k) = m.read a n ++ m.read (a + n) k := by
  unfold read
  rw [List.range_add, List.map_append, List.map_map]
  refine congrArg _ (List.map_congr_left fun i _ => ?_)
  show m (a + (n + i)) = m (a + n + i)
  rw [Nat.add_assoc]

theorem read_congr {m' : Memory} (h : ∀ i < n, m' (a + i) = m (a + i)) : m'.read a n = m.read a n :=
  List.map_congr_left fun i hi => h i (List.mem_range.1 hi)

theorem write_apply_of_lt (h : x < a) : m.write a bs x = m x := if_neg (Nat.not_le.2 h)

theorem write_apply_of_le (h : a + bs.length ≤ x) : m.write a bs x = m x := by
  unfold write
  rw [if_pos (by omega), List.getElem?_eq_none (by omega)]
  rfl

theorem write_apply_add {i : ℕ} (h : i < bs.length) : m.write a bs (a + i) = bs[i] := by
  unfold write
  rw [if_pos (Nat.le_add_right a i), Nat.add_sub_cancel_left, List.getElem?_eq_getElem h]
  rfl

theorem outside_write (h1 : a ≤ b) (h2 : b + bs.length ≤ a + n) : Outside m (m.write b bs) a n := by
  rintro x (hx | hx)
  · exact write_apply_of_lt (by omega)
  · exact write_apply_of_le (by omega)

theorem Outside.trans {m' m'' : Memory} (h : Outside m m' a n) (h' : Outside m' m'' a n) : Outside m m'' a n :=
  fun x hx => (h' x hx).trans (h x hx)

theorem read_write_of_disjoint (h : b + n ≤ a ∨ a + bs.length ≤ b) : (m.write a bs).read b n = m.read b n := by
  refine read_congr fun i hi => ?_
  rcases h with h | h
  · exact write_apply_of_lt (by omega)
  · exact write_apply_of_le (by omega)

/-- Part of a block that was written. -/
theorem read_write (h : k + n ≤ bs.length) : (m.write a bs).read (a + k) n = (bs.drop k).take n := by
  refine List.ext_getElem ?_ fun i h1 h2 => ?_
  · rw [length_read, List.length_take, List.length_drop]
    omega
  · have hi : i < n := by rwa [length_read] at h1
    rw [getElem_read, List.getElem_take, List.getElem_drop, Nat.add_assoc]
    exact write_apply_add (by omega)

/-! ### Integers -/

theorem load_succ : m.load a (n + 1) = (m a).toNat + 256 * m.load (a + 1) n := by
  unfold load
  rw [Nat.add_comm n 1, read_add]
  rfl

theorem load_lt : m.load a n < 256 ^ n := by
  induction n generalizing a with
  | zero => exact Nat.one_pos
  | succ n ih =>
    have hbyte : (m a).toNat < 256 := (m a).toNat_lt
    have hrest := ih (a := a + 1)
    rw [load_succ, Nat.pow_succ]
    omega

theorem Outside.load {m' : Memory} (h : Outside m m' a n) (hd : b + k ≤ a ∨ a + n ≤ b) :
    m'.load b k = m.load b k :=
  congrArg ofBytesLE (read_congr fun i hi => h _ (by omega))

theorem length_bytesLE : (bytesLE n v).length = n := by
  induction n generalizing v with
  | zero => rfl
  | succ n ih => exact congrArg Nat.succ ih

theorem ofBytesLE_bytesLE : ofBytesLE (bytesLE n v) = v % 256 ^ n := by
  induction n generalizing v with
  | zero => rw [Nat.pow_zero, Nat.mod_one]; rfl
  | succ n ih =>
    show (UInt8.ofNat v).toNat + 256 * ofBytesLE (bytesLE n (v / 256)) = _
    have hbyte : (UInt8.ofNat v).toNat = v % 256 := UInt8.toNat_ofNat'
    rw [ih, hbyte, Nat.pow_succ, Nat.mul_comm (256 ^ n) 256, Nat.mod_mul]

theorem drop_bytesLE : (bytesLE (k + n) v).drop k = bytesLE n (v / 256 ^ k) := by
  induction k generalizing v with
  | zero => rw [Nat.zero_add, Nat.pow_zero, Nat.div_one, List.drop_zero]
  | succ k ih =>
    rw [Nat.add_right_comm, bytesLE, List.drop_succ_cons, ih, Nat.div_div_eq_div_mul, Nat.pow_succ,
      Nat.mul_comm 256]

theorem take_bytesLE : (bytesLE (n + k) v).take n = bytesLE n v := by
  induction n generalizing v with
  | zero => rfl
  | succ n ih => rw [Nat.add_right_comm, bytesLE, bytesLE, List.take_succ_cons, ih]

theorem load_store_of_disjoint (h : b + k ≤ a ∨ a + n ≤ b) : (m.store a n v).load b k = m.load b k := by
  unfold load store
  rw [read_write_of_disjoint (by rwa [length_bytesLE])]

/-- Bytes `k` to `k + n` of an integer that was stored. -/
theorem load_store {j : ℕ} : (m.store a (k + (n + j)) v).load (a + k) n = v / 256 ^ k % 256 ^ n := by
  unfold load store
  rw [read_write (by rw [length_bytesLE]; omega), drop_bytesLE, take_bytesLE, ofBytesLE_bytesLE]

theorem outside_store (h1 : a ≤ b) (h2 : b + k ≤ a + n) : Outside m (m.store b k v) a n :=
  outside_write h1 (by rwa [length_bytesLE])

end Memory
