import Mathlib.Data.List.Basic
import Mathlib.Data.List.Induction
import Mathlib.Tactic.Common

/-!
# Bytes read as UTF-8 text, with replacements

A byte string that need not be UTF-8 is turned into text from left to right: whole
characters are kept, and every longest beginning of a character that is not continued,
like every byte that begins none, becomes one replacement character.  The text is again
a byte string here.  It is the original one exactly when that is UTF-8.
-/

namespace P2PFileTransfer.Foundation.LossyText

abbrev Bytes := List UInt8

/-! ## Characters -/

/-- The number of bytes that the first byte of a character announces, itself included. -/
def width (first : UInt8) : Nat :=
  if first.toNat < 0x80 then 1
  else if first.toNat < 0xC2 then 0
  else if first.toNat < 0xE0 then 2
  else if first.toNat < 0xF0 then 3
  else if first.toNat < 0xF5 then 4
  else 0

def isCont (byte : UInt8) : Bool := decide (0x80 ≤ byte.toNat ∧ byte.toNat < 0xC0)

/-- The second byte also keeps out overlong forms, surrogates and values past the last
character. -/
def isSecond (first second : UInt8) : Bool :=
  if first.toNat = 0xE0 then decide (0xA0 ≤ second.toNat ∧ second.toNat < 0xC0)
  else if first.toNat = 0xED then decide (0x80 ≤ second.toNat ∧ second.toNat < 0xA0)
  else if first.toNat = 0xF0 then decide (0x90 ≤ second.toNat ∧ second.toNat < 0xC0)
  else if first.toNat = 0xF4 then decide (0x80 ≤ second.toNat ∧ second.toNat < 0x90)
  else isCont second

/-- The bytes are a character or can be continued to one. -/
def isBeginning : Bytes → Bool
  | [first] => decide (1 ≤ width first)
  | [first, second] => decide (2 ≤ width first) && isSecond first second
  | [first, second, third] => decide (3 ≤ width first) && isSecond first second && isCont third
  | [first, second, third, fourth] =>
      decide (width first = 4) && isSecond first second && isCont third && isCont fourth
  | _ => false

def isChar : Bytes → Bool
  | [] => false
  | first :: rest => isBeginning (first :: rest) && decide (rest.length + 1 = width first)

/-- Some text has these bytes. -/
def IsUtf8 (bytes : Bytes) : Prop := ∃ text : List Char, bytes = text.flatMap String.utf8EncodeChar

/-! ## The conversion -/

/-- The character U+FFFD. -/
def replacement : Bytes := [0xEF, 0xBF, 0xBD]

/-- What a beginning without a continuation becomes. -/
def flush (pending : Bytes) : Bytes := if pending = [] then [] else replacement

/-- A byte behind a whole character: what is written, and the beginning that is left open. -/
def start (byte : UInt8) : Bytes × Bytes :=
  if isChar [byte] then ([byte], [])
  else if isBeginning [byte] then ([], [byte])
  else (replacement, [])

/-- A byte behind a beginning that is still open. -/
def step (pending : Bytes) (byte : UInt8) : Bytes × Bytes :=
  if isChar (pending ++ [byte]) then (pending ++ [byte], [])
  else if isBeginning (pending ++ [byte]) then ([], pending ++ [byte])
  else (flush pending ++ (start byte).1, (start byte).2)

def lossyFrom : Bytes → Bytes → Bytes
  | pending, [] => flush pending
  | pending, byte :: rest => (step pending byte).1 ++ lossyFrom (step pending byte).2 rest

def lossy (bytes : Bytes) : Bytes := lossyFrom [] bytes

/-! ## The bytes of one character -/

theorem isCont_iff {byte : UInt8} : isCont byte = true ↔ 0x80 ≤ byte.toNat ∧ byte.toNat < 0xC0 :=
  decide_eq_true_iff

theorem isSecond_iff {first second : UInt8} :
    isSecond first second = true ↔ 0x80 ≤ second.toNat ∧ second.toNat < 0xC0 ∧
      (first.toNat = 0xE0 → 0xA0 ≤ second.toNat) ∧ (first.toNat = 0xED → second.toNat < 0xA0) ∧
      (first.toNat = 0xF0 → 0x90 ≤ second.toNat) ∧ (first.toNat = 0xF4 → second.toNat < 0x90) := by
  unfold isSecond
  split
  · rw [decide_eq_true_iff]
    omega
  · split
    · rw [decide_eq_true_iff]
      omega
    · split
      · rw [decide_eq_true_iff]
        omega
      · split
        · rw [decide_eq_true_iff]
          omega
        · rw [isCont_iff]
          omega

theorem isChar_one_iff {first : UInt8} : isChar [first] = true ↔ first.toNat < 0x80 := by
  have hwidth : width first = 1 ↔ first.toNat < 0x80 := by
    unfold width
    grind
  simp only [isChar, isBeginning, Bool.and_eq_true, decide_eq_true_iff, List.length_nil]
  omega

theorem isChar_two_iff {first second : UInt8} :
    isChar [first, second] = true ↔
      (0xC2 ≤ first.toNat ∧ first.toNat < 0xE0) ∧ 0x80 ≤ second.toNat ∧ second.toNat < 0xC0 := by
  have hwidth : width first = 2 ↔ 0xC2 ≤ first.toNat ∧ first.toNat < 0xE0 := by
    unfold width
    grind
  simp only [isChar, isBeginning, Bool.and_eq_true, decide_eq_true_iff, isSecond_iff,
    List.length_cons, List.length_nil]
  omega

theorem isChar_three_iff {first second third : UInt8} :
    isChar [first, second, third] = true ↔
      (0xE0 ≤ first.toNat ∧ first.toNat < 0xF0) ∧ (0x80 ≤ second.toNat ∧ second.toNat < 0xC0) ∧
      (first.toNat = 0xE0 → 0xA0 ≤ second.toNat) ∧ (first.toNat = 0xED → second.toNat < 0xA0) ∧
      0x80 ≤ third.toNat ∧ third.toNat < 0xC0 := by
  have hwidth : width first = 3 ↔ 0xE0 ≤ first.toNat ∧ first.toNat < 0xF0 := by
    unfold width
    grind
  simp only [isChar, isBeginning, Bool.and_eq_true, decide_eq_true_iff, isSecond_iff, isCont_iff,
    List.length_cons, List.length_nil]
  omega

theorem isChar_four_iff {first second third fourth : UInt8} :
    isChar [first, second, third, fourth] = true ↔
      (0xF0 ≤ first.toNat ∧ first.toNat < 0xF5) ∧ (0x80 ≤ second.toNat ∧ second.toNat < 0xC0) ∧
      (first.toNat = 0xF0 → 0x90 ≤ second.toNat) ∧ (first.toNat = 0xF4 → second.toNat < 0x90) ∧
      (0x80 ≤ third.toNat ∧ third.toNat < 0xC0) ∧ 0x80 ≤ fourth.toNat ∧ fourth.toNat < 0xC0 := by
  have hwidth : width first = 4 ↔ 0xF0 ≤ first.toNat ∧ first.toNat < 0xF5 := by
    unfold width
    grind
  simp only [isChar, isBeginning, Bool.and_eq_true, decide_eq_true_iff, isSecond_iff, isCont_iff,
    List.length_cons, List.length_nil]
  omega

theorem toNat_ofNat_of_lt {value : Nat} (hvalue : value < 256) :
    (UInt8.ofNat value).toNat = value := by
  rw [UInt8.toNat_ofNat']
  exact Nat.mod_eq_of_lt hvalue

/-- The bytes that encode a character. -/
theorem isChar_encode (char : Char) : isChar (String.utf8EncodeChar char) = true := by
  have hvalid : char.val.toNat < 0xD800 ∨ 0xDFFF < char.val.toNat ∧ char.val.toNat < 0x110000 :=
    char.valid
  unfold String.utf8EncodeChar
  generalize char.val.toNat = value at hvalid
  dsimp only
  split
  · rw [isChar_one_iff, toNat_ofNat_of_lt (by omega)]
    omega
  · split
    · rw [isChar_two_iff, toNat_ofNat_of_lt (by omega), toNat_ofNat_of_lt (by omega)]
      omega
    · split
      · rw [isChar_three_iff, toNat_ofNat_of_lt (by omega), toNat_ofNat_of_lt (by omega),
          toNat_ofNat_of_lt (by omega)]
        omega
      · rw [isChar_four_iff, toNat_ofNat_of_lt (by omega), toNat_ofNat_of_lt (by omega),
          toNat_ofNat_of_lt (by omega), toNat_ofNat_of_lt (by omega)]
        omega

theorem exists_char_of_valid (value : Nat)
    (hvalid : value < 0xD800 ∨ 0xDFFF < value ∧ value < 0x110000) :
    ∃ char : Char, char.val.toNat = value :=
  ⟨Char.ofNat value, by
    rw [Char.ofNat, dif_pos hvalid]
    rfl⟩

theorem ofNat_eq (byte : UInt8) {value : Nat} (hvalue : value = byte.toNat) :
    UInt8.ofNat value = byte := by
  rw [hvalue, UInt8.ofNat_toNat]

/-- Every character of the automaton is one of the text. -/
theorem exists_char_of_isChar {bytes : Bytes} (hchar : isChar bytes = true) :
    ∃ char : Char, bytes = String.utf8EncodeChar char := by
  match bytes with
  | [] => cases hchar
  | [first] =>
      have hfirst := isChar_one_iff.mp hchar
      obtain ⟨char, hvalue⟩ := exists_char_of_valid first.toNat (by omega)
      refine ⟨char, ?_⟩
      rw [String.utf8EncodeChar, hvalue, if_pos (by omega), ofNat_eq first rfl]
  | [first, second] =>
      have hbounds := isChar_two_iff.mp hchar
      obtain ⟨char, hvalue⟩ :=
        exists_char_of_valid (first.toNat % 32 * 64 + second.toNat % 64) (by omega)
      refine ⟨char, ?_⟩
      rw [String.utf8EncodeChar, hvalue, if_neg (by omega), if_pos (by omega),
        ofNat_eq first (by omega), ofNat_eq second (by omega)]
  | [first, second, third] =>
      have hbounds := isChar_three_iff.mp hchar
      obtain ⟨char, hvalue⟩ := exists_char_of_valid
        (first.toNat % 16 * 4096 + second.toNat % 64 * 64 + third.toNat % 64) (by omega)
      refine ⟨char, ?_⟩
      rw [String.utf8EncodeChar, hvalue, if_neg (by omega), if_neg (by omega), if_pos (by omega),
        ofNat_eq first (by omega), ofNat_eq second (by omega),
        ofNat_eq third (by omega)]
  | [first, second, third, fourth] =>
      have hbounds := isChar_four_iff.mp hchar
      obtain ⟨char, hvalue⟩ := exists_char_of_valid
        (first.toNat % 8 * 262144 + second.toNat % 64 * 4096 + third.toNat % 64 * 64 +
          fourth.toNat % 64) (by omega)
      refine ⟨char, ?_⟩
      rw [String.utf8EncodeChar, hvalue, if_neg (by omega), if_neg (by omega), if_neg (by omega),
        ofNat_eq first (by omega), ofNat_eq second (by omega),
        ofNat_eq third (by omega), ofNat_eq fourth (by omega)]
  | _ :: _ :: _ :: _ :: _ :: _ => cases hchar

/-! ## One step -/

@[simp]
theorem lossyFrom_nil (pending : Bytes) : lossyFrom pending [] = flush pending := rfl

@[simp]
theorem lossyFrom_cons (pending : Bytes) (byte : UInt8) (rest : Bytes) :
    lossyFrom pending (byte :: rest) =
      (step pending byte).1 ++ lossyFrom (step pending byte).2 rest := rfl

theorem length_le_of_isBeginning (hbeginning : isBeginning bytes = true) : bytes.length ≤ 4 := by
  match bytes with
  | [] | [_] | [_, _] | [_, _, _] | [_, _, _, _] => simp
  | _ :: _ :: _ :: _ :: _ :: _ => cases hbeginning

theorem isBeginning_of_isChar (hchar : isChar bytes = true) : isBeginning bytes = true := by
  cases bytes with
  | nil => cases hchar
  | cons first rest => exact (Bool.and_eq_true_iff.mp hchar).1

/-- A beginning that goes on was a beginning before, and not yet a character. -/
theorem isBeginning_of_concat (hbeginning : isBeginning (bytes ++ [byte]) = true)
    (hopen : bytes ≠ []) : isBeginning bytes = true ∧ isChar bytes = false := by
  match bytes with
  | [] => exact absurd rfl hopen
  | [first] =>
      simp only [List.cons_append, List.nil_append, isBeginning, Bool.and_eq_true,
        decide_eq_true_iff] at hbeginning
      simp [isChar, isBeginning]
      omega
  | [first, second] =>
      simp only [List.cons_append, List.nil_append, isBeginning, Bool.and_eq_true,
        decide_eq_true_iff] at hbeginning
      simp [isChar, isBeginning, hbeginning.1.2]
      omega
  | [first, second, third] =>
      simp only [List.cons_append, List.nil_append, isBeginning, Bool.and_eq_true,
        decide_eq_true_iff] at hbeginning
      simp [isChar, isBeginning, hbeginning.1.1.1, hbeginning.1.1.2, hbeginning.1.2]
  | _ :: _ :: _ :: _ :: _ => exact absurd (length_le_of_isBeginning hbeginning) (by simp)

theorem isBeginning_of_append {front : Bytes} (hopen : front ≠ [])
    (hbeginning : isBeginning (front ++ rest) = true) : isBeginning front = true := by
  induction rest using List.reverseRecOn with
  | nil => rwa [List.append_nil] at hbeginning
  | append_singleton rest byte ih =>
      rw [← List.append_assoc] at hbeginning
      exact ih (isBeginning_of_concat hbeginning (by simp [hopen])).1

/-- What a step writes and leaves open. -/
theorem step_cases (pending : Bytes) (byte : UInt8) :
    (isChar (pending ++ [byte]) = true ∧ step pending byte = (pending ++ [byte], [])) ∨
    step pending byte = ([], pending ++ [byte]) ∨
    (isChar [byte] = true ∧ step pending byte = (flush pending ++ [byte], [])) ∨
    step pending byte = (flush pending, [byte]) ∨
    step pending byte = (flush pending ++ replacement, []) := by
  unfold step
  split
  · exact Or.inl ⟨by assumption, rfl⟩
  · split
    · exact Or.inr (Or.inl rfl)
    · unfold start
      split
      · exact Or.inr (Or.inr (Or.inl ⟨by assumption, rfl⟩))
      · split
        · exact Or.inr (Or.inr (Or.inr (Or.inl (by rw [List.append_nil]))))
        · exact Or.inr (Or.inr (Or.inr (Or.inr rfl)))

/-- A byte of the ASCII range ends whatever is open. -/
theorem step_ascii (pending : Bytes) (hascii : byte.toNat < 0x80) :
    step pending byte = (flush pending ++ [byte], []) := by
  have hsingle : isChar [byte] = true := isChar_one_iff.mpr hascii
  have hcont : isCont byte = false := by
    rw [Bool.eq_false_iff, ne_eq, isCont_iff]
    omega
  have hsecond : ∀ first, isSecond first byte = false := by
    intro first
    rw [Bool.eq_false_iff, ne_eq, isSecond_iff]
    omega
  by_cases hopen : pending = []
  · rw [hopen, step, List.nil_append, if_pos hsingle]
    rfl
  · have hbeginning : isBeginning (pending ++ [byte]) = false := by
      match pending with
      | [] => exact absurd rfl hopen
      | [first] => simp [isBeginning, hsecond]
      | [first, second] => simp [isBeginning, hcont]
      | [first, second, third] => simp [isBeginning, hcont]
      | _ :: _ :: _ :: _ :: _ =>
          exact Bool.eq_false_iff.mpr fun hlong =>
            absurd (length_le_of_isBeginning hlong) (by simp)
    have hchar : ¬ isChar (pending ++ [byte]) = true := by
      intro hchar
      rw [isBeginning_of_isChar hchar] at hbeginning
      cases hbeginning
    rw [step, if_neg hchar, hbeginning, if_neg Bool.false_ne_true, start, if_pos hsingle]

/-! ## The whole conversion -/

theorem lossyFrom_append_ascii (pending front rest : Bytes) (hascii : byte.toNat < 0x80) :
    lossyFrom pending (front ++ byte :: rest) =
      lossyFrom pending front ++ byte :: lossyFrom [] rest := by
  induction front generalizing pending with
  | nil =>
      rw [List.nil_append, lossyFrom_cons, step_ascii pending hascii, lossyFrom_nil,
        List.append_assoc, List.singleton_append]
  | cons first front ih =>
      rw [List.cons_append, lossyFrom_cons, lossyFrom_cons, ih, List.append_assoc]

/-- A byte of the ASCII range splits the text it stands in. -/
theorem lossy_append_ascii (front rest : Bytes) (hascii : byte.toNat < 0x80) :
    lossy (front ++ byte :: rest) = lossy front ++ byte :: lossy rest :=
  lossyFrom_append_ascii [] front rest hascii

theorem mem_flush (hbyte : byte ∈ flush pending) : byte ∈ replacement := by
  unfold flush at hbyte
  split at hbyte
  · cases hbyte
  · exact hbyte

/-- Every byte of the result was there before or belongs to a replacement. -/
theorem mem_lossyFrom (hbyte : byte ∈ lossyFrom pending bytes) :
    byte ∈ pending ∨ byte ∈ bytes ∨ byte ∈ replacement := by
  induction bytes generalizing pending with
  | nil => exact Or.inr (Or.inr (mem_flush hbyte))
  | cons first rest ih =>
      rw [lossyFrom_cons, List.mem_append] at hbyte
      have hlater : byte ∈ lossyFrom (step pending first).2 rest →
          byte ∈ (step pending first).2 ∨ byte ∈ rest ∨ byte ∈ replacement := ih
      have hflush : byte ∈ flush pending → byte ∈ replacement := mem_flush
      rw [List.mem_cons]
      rcases step_cases pending first with ⟨_, hstep⟩ | hstep | ⟨_, hstep⟩ | hstep | hstep <;>
        rw [hstep] at hbyte hlater <;> simp only [List.mem_append, List.not_mem_nil, List.mem_cons]
          at hbyte hlater <;> tauto

theorem flush_eq_or_mem (pending : Bytes) : pending = [] ∨ 0xEF ∈ flush pending := by
  by_cases hopen : pending = []
  · exact Or.inl hopen
  · right
    rw [flush, if_neg hopen]
    decide

/-- Nothing is replaced, or a replacement shows. -/
theorem lossyFrom_eq_or_mem (pending bytes : Bytes) :
    lossyFrom pending bytes = pending ++ bytes ∨ 0xEF ∈ lossyFrom pending bytes := by
  induction bytes generalizing pending with
  | nil =>
      rcases flush_eq_or_mem pending with rfl | hmem
      · exact Or.inl rfl
      · exact Or.inr hmem
  | cons byte rest ih =>
      rw [lossyFrom_cons]
      have hlater := ih (step pending byte).2
      rcases step_cases pending byte with ⟨_, hstep⟩ | hstep | ⟨_, hstep⟩ | hstep | hstep <;>
        rw [hstep] at hlater ⊢
      · rcases hlater with heq | hmem
        · exact Or.inl (by rw [heq]; simp)
        · exact Or.inr (List.mem_append_right _ hmem)
      · rcases hlater with heq | hmem
        · exact Or.inl (by rw [heq]; simp)
        · exact Or.inr (List.mem_append_right _ hmem)
      · rcases flush_eq_or_mem pending with rfl | hflush
        · rcases hlater with heq | hmem
          · exact Or.inl (by rw [heq]; rfl)
          · exact Or.inr (List.mem_append_right _ hmem)
        · exact Or.inr (List.mem_append_left _ (List.mem_append_left _ hflush))
      · rcases flush_eq_or_mem pending with rfl | hflush
        · rcases hlater with heq | hmem
          · exact Or.inl (by rw [heq]; rfl)
          · exact Or.inr (List.mem_append_right _ hmem)
        · exact Or.inr (List.mem_append_left _ hflush)
      · exact Or.inr (List.mem_append_left _ (List.mem_append_right _ (by decide)))

theorem lossy_eq_of_not_mem (hclean : 0xEF ∉ lossy bytes) : lossy bytes = bytes :=
  (lossyFrom_eq_or_mem [] bytes).resolve_right hclean

/-- A whole character is copied, from whichever of its bytes on. -/
theorem lossyFrom_char {front back : Bytes} (hback : back ≠ [])
    (hchar : isChar (front ++ back) = true) (rest : Bytes) :
    lossyFrom front (back ++ rest) = front ++ back ++ lossyFrom [] rest := by
  induction back generalizing front with
  | nil => exact absurd rfl hback
  | cons byte back ih =>
      rw [List.cons_append, lossyFrom_cons]
      cases back with
      | nil => rw [step, if_pos hchar, List.nil_append]
      | cons next back =>
          rw [List.append_cons] at hchar
          have hwhole : isBeginning (front ++ [byte] ++ [next] ++ back) = true := by
            rw [← List.append_cons]
            exact isBeginning_of_isChar hchar
          have hbeginning := isBeginning_of_append (by simp) hwhole
          obtain ⟨hopen, hnotYet⟩ := isBeginning_of_concat hbeginning (by simp)
          have hstep : step front byte = ([], front ++ [byte]) := by
            rw [step, hnotYet, if_neg Bool.false_ne_true, if_pos hopen]
          rw [hstep, List.nil_append, ih (List.cons_ne_nil _ _) hchar, List.append_assoc front]
          rfl

theorem isUtf8_nil : IsUtf8 [] := ⟨[], rfl⟩

theorem IsUtf8.append {front : Bytes} (hfront : IsUtf8 front) (hrest : IsUtf8 rest) :
    IsUtf8 (front ++ rest) := by
  obtain ⟨first, rfl⟩ := hfront
  obtain ⟨second, rfl⟩ := hrest
  exact ⟨first ++ second, List.flatMap_append.symm⟩

theorem isUtf8_of_isChar (hchar : isChar bytes = true) : IsUtf8 bytes := by
  obtain ⟨char, rfl⟩ := exists_char_of_isChar hchar
  exact ⟨[char], by simp⟩

theorem isUtf8_replacement : IsUtf8 replacement := isUtf8_of_isChar (by decide)

theorem isUtf8_flush (pending : Bytes) : IsUtf8 (flush pending) := by
  unfold flush
  split
  · exact isUtf8_nil
  · exact isUtf8_replacement

/-- The result is always UTF-8. -/
theorem isUtf8_lossyFrom (pending bytes : Bytes) : IsUtf8 (lossyFrom pending bytes) := by
  induction bytes generalizing pending with
  | nil => exact isUtf8_flush pending
  | cons byte rest ih =>
      refine IsUtf8.append ?_ (ih _)
      rcases step_cases pending byte with ⟨hchar, hstep⟩ | hstep | ⟨hchar, hstep⟩ | hstep | hstep <;>
        rw [hstep]
      · exact isUtf8_of_isChar hchar
      · exact isUtf8_nil
      · exact (isUtf8_flush pending).append (isUtf8_of_isChar hchar)
      · exact isUtf8_flush pending
      · exact (isUtf8_flush pending).append isUtf8_replacement

/-- The conversion changes nothing exactly when the bytes are UTF-8. -/
theorem lossy_eq_self_iff (bytes : Bytes) : lossy bytes = bytes ↔ IsUtf8 bytes := by
  constructor
  · intro hsame
    rw [← hsame]
    exact isUtf8_lossyFrom [] bytes
  · rintro ⟨text, rfl⟩
    induction text with
    | nil => rfl
    | cons char text ih =>
        rw [List.flatMap_cons, lossy, lossyFrom_char String.utf8EncodeChar_ne_nil
          (isChar_encode char)]
        exact congrArg _ ih

instance (bytes : Bytes) : Decidable (IsUtf8 bytes) :=
  decidable_of_iff _ (lossy_eq_self_iff bytes)

end P2PFileTransfer.Foundation.LossyText
