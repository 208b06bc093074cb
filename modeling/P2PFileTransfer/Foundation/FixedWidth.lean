import Mathlib.Tactic.Common
import Mathlib.Tactic.Ring

/-!
# Fixed-width unsigned arithmetic that reports its own faults

A machine integer is a natural number below `2 ^ width`.  Every operation below
either returns the exact integer result or the fault that stops it, so that a
computation which returns a value has computed over the integers.  Multiplying
or adding past the width is one fault, whether the program then panics or wraps.
-/

namespace P2PFileTransfer.Foundation.FixedWidth

/-- Why a fixed-width expression has no exact value. -/
inductive Fault where
  | overflow
  | divisionByZero
  deriving DecidableEq, Repr

abbrev Checked (α : Type) := Except Fault α

/-- Keep an exact result only when it is representable. -/
def fit (width value : Nat) : Checked Nat :=
  if value < 2 ^ width then .ok value else .error .overflow

def add (width left right : Nat) : Checked Nat := fit width (left + right)

def mul (width left right : Nat) : Checked Nat := fit width (left * right)

def sub (left right : Nat) : Checked Nat :=
  if right ≤ left then .ok (left - right) else .error .overflow

def div (left right : Nat) : Checked Nat :=
  if right = 0 then .error .divisionByZero else .ok (left / right)

/-- The truncating `as` conversion to a narrower width never faults. -/
def truncate (width value : Nat) : Nat := value % 2 ^ width

/-- The running sum of a list, each addition checked. -/
def sum (width : Nat) : Nat → List Nat → Checked Nat
  | total, [] => .ok total
  | total, value :: rest => add width total value >>= fun next => sum width next rest

theorem fit_eq_ok {width value : Nat} (hfits : value < 2 ^ width) :
    fit width value = .ok value := if_pos hfits

theorem add_eq_ok {width left right : Nat} (hfits : left + right < 2 ^ width) :
    add width left right = .ok (left + right) := fit_eq_ok hfits

theorem mul_eq_ok {width left right : Nat} (hfits : left * right < 2 ^ width) :
    mul width left right = .ok (left * right) := fit_eq_ok hfits

theorem fit_eq_ok_iff {width value result : Nat} :
    fit width value = .ok result ↔ value < 2 ^ width ∧ result = value := by
  unfold fit
  split
  · rename_i hfits
    constructor
    · intro hok
      cases hok
      exact ⟨hfits, rfl⟩
    · rintro ⟨_, rfl⟩
      rfl
  · rename_i hlarge
    constructor
    · intro hok
      cases hok
    · rintro ⟨hfits, _⟩
      exact absurd hfits hlarge

theorem add_eq_ok_iff {width left right total : Nat} :
    add width left right = .ok total ↔ left + right < 2 ^ width ∧ total = left + right :=
  fit_eq_ok_iff

theorem mul_eq_ok_iff {width left right product : Nat} :
    mul width left right = .ok product ↔ left * right < 2 ^ width ∧ product = left * right :=
  fit_eq_ok_iff

theorem sub_eq_ok {left right : Nat} (hle : right ≤ left) :
    sub left right = .ok (left - right) := if_pos hle

theorem div_eq_ok {left right : Nat} (hpos : 0 < right) :
    div left right = .ok (left / right) := if_neg (Nat.pos_iff_ne_zero.mp hpos)

@[simp]
theorem div_zero (left : Nat) : div left 0 = .error .divisionByZero := if_pos rfl

theorem truncate_eq_self {width value : Nat} (hfits : value < 2 ^ width) :
    truncate width value = value := Nat.mod_eq_of_lt hfits

/-- A bound on the exact sum is a bound on every partial sum. -/
theorem sum_eq_ok {width total : Nat} {values : List Nat}
    (hfits : total + values.sum < 2 ^ width) :
    sum width total values = .ok (total + values.sum) := by
  induction values generalizing total with
  | nil => rfl
  | cons value rest ih =>
      rw [List.sum_cons] at hfits ⊢
      have hhead : total + value < 2 ^ width := by omega
      have htail : total + value + rest.sum < 2 ^ width := by omega
      rw [sum, add_eq_ok hhead]
      change sum width (total + value) rest = _
      rw [ih htail, Nat.add_assoc]

theorem eq_of_sum_eq_ok {width total result : Nat} {values : List Nat}
    (hsum : sum width total values = .ok result) : result = total + values.sum := by
  induction values generalizing total with
  | nil =>
      cases hsum
      rfl
  | cons value rest ih =>
      rw [sum] at hsum
      cases hadd : add width total value with
      | error fault =>
          rw [hadd] at hsum
          cases hsum
      | ok next =>
          rw [hadd] at hsum
          rw [ih hsum, (add_eq_ok_iff.mp hadd).2, List.sum_cons, Nat.add_assoc]

theorem lt_of_sum_eq_ok {width total result : Nat} {values : List Nat} (hfits : total < 2 ^ width)
    (hsum : sum width total values = .ok result) : result < 2 ^ width := by
  induction values generalizing total with
  | nil =>
      cases hsum
      exact hfits
  | cons value rest ih =>
      rw [sum] at hsum
      cases hadd : add width total value with
      | error fault =>
          rw [hadd] at hsum
          cases hsum
      | ok next =>
          rw [hadd] at hsum
          obtain ⟨hnext, rfl⟩ := add_eq_ok_iff.mp hadd
          exact ih hnext hsum

/-! ## Builds -/

/-- How a program is built: past the width its arithmetic panics or wraps. -/
inductive Build where
  | checked
  | wrapping
  deriving DecidableEq, Repr

def Build.keep (build : Build) (width value : Nat) : Checked Nat :=
  match build with
  | .checked => fit width value
  | .wrapping => .ok (truncate width value)

/-- A build keeps a value that fits. -/
theorem Build.keep_of_lt {width value : Nat} (build : Build) (hfits : value < 2 ^ width) :
    build.keep width value = .ok value := by
  cases build with
  | checked => exact fit_eq_ok hfits
  | wrapping => exact congrArg Except.ok (truncate_eq_self hfits)

theorem Build.keep_checked_of_le {width value : Nat} (hlarge : 2 ^ width ≤ value) :
    Build.checked.keep width value = .error .overflow := if_neg (Nat.not_lt.mpr hlarge)

/-- Truncating a factor does not change the truncated product. -/
theorem truncate_mul_truncate (width left right : Nat) :
    truncate width (left * truncate width right) = truncate width (left * right) :=
  Nat.mul_mod_mod left right (2 ^ width)

/-! ## Little-endian bytes -/

def toLittleEndian : Nat → Nat → List UInt8
  | 0, _ => []
  | count + 1, value => UInt8.ofNat value :: toLittleEndian count (value / 256)

def fromLittleEndian : List UInt8 → Nat
  | [] => 0
  | byte :: rest => byte.toNat + 256 * fromLittleEndian rest

@[simp]
theorem length_toLittleEndian (count value : Nat) :
    (toLittleEndian count value).length = count := by
  induction count generalizing value with
  | zero => rfl
  | succ count ih => rw [toLittleEndian, List.length_cons, ih]

/-- A value that fits its bytes is read back. -/
theorem fromLittleEndian_toLittleEndian {count value : Nat} (hfits : value < 256 ^ count) :
    fromLittleEndian (toLittleEndian count value) = value := by
  induction count generalizing value with
  | zero =>
      rw [Nat.pow_zero] at hfits
      exact (Nat.lt_one_iff.mp hfits).symm
  | succ count ih =>
      have hrest : value / 256 < 256 ^ count := by
        rw [Nat.pow_succ, Nat.mul_comm] at hfits
        exact Nat.div_lt_of_lt_mul hfits
      have hbyte : (UInt8.ofNat value).toNat = value % 256 := UInt8.toNat_ofNat'
      rw [toLittleEndian, fromLittleEndian, ih hrest, hbyte]
      exact Nat.mod_add_div value 256

def toBigEndian (count value : Nat) : List UInt8 := (toLittleEndian count value).reverse

def fromBigEndian (bytes : List UInt8) : Nat := fromLittleEndian bytes.reverse

@[simp]
theorem length_toBigEndian (count value : Nat) : (toBigEndian count value).length = count := by
  rw [toBigEndian, List.length_reverse, length_toLittleEndian]

theorem fromBigEndian_toBigEndian {count value : Nat} (hfits : value < 256 ^ count) :
    fromBigEndian (toBigEndian count value) = value := by
  rw [fromBigEndian, toBigEndian, List.reverse_reverse, fromLittleEndian_toLittleEndian hfits]

end P2PFileTransfer.Foundation.FixedWidth
