import Mathlib.Data.List.DropRight
import P2PFileTransfer.Foundation.Utf8

/-!
# Searching a text

A search gives the byte offset of the first place where a piece occurs.  Cuts at two such
offsets are between characters, but the second one may lie before the first.
-/

namespace P2PFileTransfer.Foundation.TextSearch

open P2PFileTransfer.Foundation.Utf8

/-- The byte offset of the first occurrence of `piece`. -/
def find (piece : Text) : Text → Option Nat
  | [] => if piece = [] then some 0 else none
  | char :: rest =>
      if piece.isPrefixOf (char :: rest) then some 0
      else (find piece rest).map fun offset => char.utf8Size + offset

/-- `&text[start..stop]`, which panics also where `stop` lies before `start`. -/
def range (text : Text) (start stop : Nat) : Option Text :=
  if start ≤ stop then slice text start stop else none

/-- The characters with the Unicode property `White_Space`. -/
def isWhitespace (char : Char) : Bool :=
  let code := char.toNat
  (9 ≤ code && code ≤ 13) || code == 32 || code == 133 || code == 160 || code == 5760 ||
    (8192 ≤ code && code ≤ 8202) || code == 8232 || code == 8233 || code == 8239 ||
    code == 8287 || code == 12288

/-- `text.trim()`. -/
def trim (text : Text) : Text := (text.dropWhile isWhitespace).rdropWhile isWhitespace

/-- Drop `piece` from the beginning as often as it is there, at most so many times. -/
def dropPieces (piece : Text) : Nat → Text → Text
  | 0, text => text
  | count + 1, text =>
      if piece.isPrefixOf text then dropPieces piece count (text.drop piece.length) else text

/-- `text.trim_end_matches(piece)`. -/
def trimEndMatches (piece text : Text) : Text :=
  (dropPieces piece.reverse text.length text.reverse).reverse

/-- The piece, so many times. -/
def repeated (piece : Text) (count : Nat) : Text := (List.replicate count piece).flatten

/-- `front` is what stands before the first occurrence of `piece`. -/
structure FirstAt (piece text front : Text) : Prop where
  occurs : front ++ piece <+: text
  first : ∀ other, other ++ piece <+: text → front.length ≤ other.length

variable {piece text front middle rest : Text} {char : Char} {offset : Nat}

/-! ## The first occurrence -/

theorem firstAt_nil (hstart : piece <+: text) : FirstAt piece text [] :=
  ⟨hstart, fun _ _ => Nat.zero_le _⟩

theorem FirstAt.cons (hfirst : FirstAt piece rest front) (hnot : ¬piece <+: char :: rest) :
    FirstAt piece (char :: rest) (char :: front) := by
  refine ⟨List.cons_prefix_cons.mpr ⟨rfl, hfirst.occurs⟩, fun other hother => ?_⟩
  cases other with
  | nil => exact absurd hother hnot
  | cons first others =>
      exact Nat.succ_le_succ (hfirst.first others (List.cons_prefix_cons.mp hother).2)

/-- There is only one first occurrence. -/
theorem FirstAt.eq {other : Text} (hfront : FirstAt piece text front)
    (hother : FirstAt piece text other) : front = other := by
  have hlength := Nat.le_antisymm (hfront.first other hother.occurs)
    (hother.first front hfront.occurs)
  have hleft := (List.prefix_append front piece).trans hfront.occurs
  have hright := (List.prefix_append other piece).trans hother.occurs
  exact (List.prefix_of_prefix_length_le hleft hright (Nat.le_of_eq hlength)).eq_of_length hlength

theorem find_cons_start (hstart : piece <+: char :: rest) :
    find piece (char :: rest) = some 0 :=
  if_pos (List.isPrefixOf_iff_prefix.mpr hstart)

theorem find_cons (hnot : ¬piece <+: char :: rest) :
    find piece (char :: rest) = (find piece rest).map fun offset => char.utf8Size + offset :=
  if_neg fun hstart => hnot (List.isPrefixOf_iff_prefix.mp hstart)

theorem find_start (hstart : piece <+: text) : find piece text = some 0 := by
  cases text with
  | nil => exact if_pos (List.prefix_nil.mp hstart)
  | cons char rest => exact find_cons_start hstart

/-- What a search finds is the first occurrence. -/
theorem find_eq_some_iff :
    find piece text = some offset ↔ ∃ front, FirstAt piece text front ∧ utf8Len front = offset := by
  constructor
  · intro hfind
    induction text generalizing offset with
    | nil =>
        obtain ⟨hempty, hzero⟩ := Option.ite_none_right_eq_some.mp hfind
        exact ⟨[], firstAt_nil (hempty ▸ List.nil_prefix), Option.some.inj hzero⟩
    | cons char rest ih =>
        by_cases hstart : piece <+: char :: rest
        · rw [find_cons_start hstart] at hfind
          exact ⟨[], firstAt_nil hstart, Option.some.inj hfind⟩
        · rw [find_cons hstart] at hfind
          obtain ⟨inner, hinner, rfl⟩ := Option.map_eq_some_iff.mp hfind
          obtain ⟨front, hfront, rfl⟩ := ih hinner
          exact ⟨char :: front, hfront.cons hstart, utf8Len_cons char front⟩
  · rintro ⟨front, hfront, rfl⟩
    induction text generalizing front with
    | nil =>
        obtain ⟨rfl, rfl⟩ := List.append_eq_nil_iff.mp (List.prefix_nil.mp hfront.occurs)
        rfl
    | cons char rest ih =>
        by_cases hstart : piece <+: char :: rest
        · rw [hfront.eq (firstAt_nil hstart)]
          exact find_cons_start hstart
        · cases front with
          | nil => exact absurd hfront.occurs hstart
          | cons first others =>
              obtain ⟨rfl, hothers⟩ := List.cons_prefix_cons.mp hfront.occurs
              have hrest : FirstAt piece rest others := by
                refine ⟨hothers, fun other hother => ?_⟩
                exact Nat.le_of_succ_le_succ
                  (hfront.first (first :: other) (List.cons_prefix_cons.mpr ⟨rfl, hother⟩))
              rw [find_cons hstart, ih others hrest, Option.map_some, utf8Len_cons]

/-- A piece is not found inside characters other than its first one. -/
theorem find_append {first : Char} (hfront : first ∉ front) (rest : Text) :
    find (first :: piece) (front ++ rest) =
      (find (first :: piece) rest).map fun offset => utf8Len front + offset := by
  induction front with
  | nil =>
      simp only [List.nil_append, utf8Len_nil, Nat.zero_add]
      exact Option.map_id_apply.symm
  | cons char front ih =>
      have hnot : ¬first :: piece <+: char :: (front ++ rest) := fun hstart =>
        hfront ((List.cons_prefix_cons.mp hstart).1 ▸ List.mem_cons_self)
      rw [List.cons_append, find_cons hnot, ih fun hmem => hfront (List.mem_cons_of_mem _ hmem),
        Option.map_map]
      congr 1
      funext offset
      rw [Function.comp_apply, utf8Len_cons, Nat.add_assoc]

/-- A run of one character does not begin a piece in which such a run goes on, or ends with
another character than here. -/
theorem find_replicate {repeated next : Char} {count more : Nat} (hmore : more ≤ count)
    (hrepeated : char ≠ repeated) (hnext : char ≠ next) (tail rest : Text) :
    find (List.replicate count repeated ++ next :: tail) (List.replicate more repeated ++ char :: rest) =
      (find (List.replicate count repeated ++ next :: tail) (char :: rest)).map fun offset =>
        utf8Len (List.replicate more repeated) + offset := by
  induction more with
  | zero =>
      simp only [List.replicate_zero, List.nil_append, utf8Len_nil, Nat.zero_add]
      exact Option.map_id_apply.symm
  | succ more ih =>
      have hnot : ¬List.replicate count repeated ++ next :: tail <+:
          repeated :: (List.replicate more repeated ++ char :: rest) := by
        rintro ⟨after, htext⟩
        have hplace := congrArg (fun text : Text => text[more + 1]?) htext
        rcases Nat.lt_or_eq_of_le hmore with hlt | rfl
        · exact hrepeated (by simpa [List.getElem?_append, hlt] using hplace.symm)
        · exact hnext (by simpa using hplace.symm)
      rw [List.replicate_succ, List.cons_append, find_cons hnot, ih (Nat.le_of_succ_le hmore),
        Option.map_map]
      congr 1
      funext offset
      rw [Function.comp_apply, utf8Len_cons, Nat.add_assoc]

/-! ## Cuts between two prefixes -/

theorem utf8Len_lt (hfront : front <+: text) (hmiddle : middle <+: text)
    (hlength : front.length < middle.length) : utf8Len front < utf8Len middle := by
  obtain ⟨rest, rfl⟩ := List.prefix_of_prefix_length_le hfront hmiddle (Nat.le_of_lt hlength)
  cases rest with
  | nil => exact absurd hlength (by rw [List.append_nil]; exact Nat.lt_irrefl _)
  | cons char rest =>
      rw [utf8Len_append, utf8Len_cons]
      have hpos := char.utf8Size_pos
      omega

/-- No occurrence is before the one that is found. -/
theorem length_le_of_find {other : Text} (hfind : find piece text = some (utf8Len front))
    (hfront : front <+: text) (hother : other ++ piece <+: text) : front.length ≤ other.length := by
  obtain ⟨found, hfound, hlength⟩ := find_eq_some_iff.mp hfind
  have hstart := (List.prefix_append found piece).trans hfound.occurs
  refine Nat.le_trans (Nat.le_of_not_lt fun hlt => ?_) (hfound.first other hother)
  have hless := utf8Len_lt hstart hfront hlt
  omega

theorem range_append (front middle rest : Text) :
    range (front ++ (middle ++ rest)) (utf8Len front) (utf8Len (front ++ middle)) =
      some middle := by
  rw [utf8Len_append, range, if_pos (Nat.le_add_right _ _), slice_append, splitAtByte_append]
  rfl

/-- Two cuts at prefixes of a text fail exactly when they are in the wrong order. -/
theorem range_eq_none_iff (hfront : front <+: text) (hmiddle : middle <+: text) :
    range text (utf8Len front) (utf8Len middle) = none ↔ middle.length < front.length := by
  constructor
  · intro hnone
    by_contra hle
    obtain ⟨inner, rfl⟩ := List.prefix_of_prefix_length_le hfront hmiddle (Nat.le_of_not_lt hle)
    obtain ⟨rest, rfl⟩ := hmiddle
    rw [List.append_assoc, range_append] at hnone
    cases hnone
  · intro hlt
    exact if_neg (Nat.not_le.mpr (utf8Len_lt hmiddle hfront hlt))

/-! ## Repeated pieces at the end -/

theorem repeated_succ (piece : Text) (count : Nat) :
    repeated piece (count + 1) = piece ++ repeated piece count := rfl

theorem reverse_repeated (piece : Text) (count : Nat) :
    (repeated piece count).reverse = repeated piece.reverse count := by
  simp only [repeated, List.reverse_flatten, List.map_replicate, List.reverse_replicate]

theorem length_repeated (piece : Text) (count : Nat) :
    (repeated piece count).length = count * piece.length := by
  induction count with
  | zero => simp [repeated]
  | succ count ih =>
      rw [repeated_succ, List.length_append, ih]
      ring

theorem count_repeated (char : Char) (piece : Text) (count : Nat) :
    (repeated piece count).count char = count * piece.count char := by
  induction count with
  | zero => simp [repeated]
  | succ count ih =>
      rw [repeated_succ, List.count_append, ih]
      ring

theorem dropPieces_spec (hpiece : piece ≠ []) {fuel : Nat} (hfuel : text.length ≤ fuel) :
    ∃ count, text = repeated piece count ++ dropPieces piece fuel text ∧
      ¬piece <+: dropPieces piece fuel text := by
  induction fuel generalizing text with
  | zero =>
      rw [List.eq_nil_of_length_eq_zero (Nat.le_zero.mp hfuel)]
      exact ⟨0, rfl, fun hstart => hpiece (List.prefix_nil.mp hstart)⟩
  | succ fuel ih =>
      rw [dropPieces]
      split
      · rename_i hstart
        obtain ⟨rest, rfl⟩ := List.isPrefixOf_iff_prefix.mp hstart
        have hpos := List.length_pos_of_ne_nil hpiece
        rw [List.length_append] at hfuel
        rw [List.drop_left]
        obtain ⟨count, hrest, hnot⟩ := @ih rest (by omega)
        refine ⟨count + 1, ?_, hnot⟩
        rw [repeated_succ, List.append_assoc, ← hrest]
      · rename_i hstart
        exact ⟨0, rfl, fun hpieces => hstart (List.isPrefixOf_iff_prefix.mpr hpieces)⟩

theorem dropPieces_append (hnot : ¬piece <+: rest) {count fuel : Nat} (hfuel : count ≤ fuel) :
    dropPieces piece fuel (repeated piece count ++ rest) = rest := by
  induction count generalizing fuel with
  | zero =>
      cases fuel with
      | zero => rfl
      | succ fuel => exact if_neg fun hstart => hnot (List.isPrefixOf_iff_prefix.mp hstart)
  | succ count ih =>
      cases fuel with
      | zero => exact absurd hfuel (Nat.not_succ_le_zero count)
      | succ fuel =>
          rw [repeated_succ, List.append_assoc, dropPieces,
            if_pos (List.isPrefixOf_iff_prefix.mpr (List.prefix_append _ _)), List.drop_left]
          exact ih (Nat.le_of_succ_le_succ hfuel)

/-- Trimming takes away copies of the piece and leaves none at the end. -/
theorem trimEndMatches_spec (hpiece : piece ≠ []) (text : Text) :
    ∃ count, text = trimEndMatches piece text ++ repeated piece count ∧
      ¬piece <:+ trimEndMatches piece text := by
  have hreverse : piece.reverse ≠ [] := fun hempty => hpiece (List.reverse_eq_nil_iff.mp hempty)
  have hfuel : text.reverse.length ≤ text.length := Nat.le_of_eq List.length_reverse
  obtain ⟨count, htext, hnot⟩ := dropPieces_spec hreverse hfuel
  refine ⟨count, ?_, fun hsuffix => hnot ?_⟩
  · have hback := congrArg List.reverse htext
    rw [List.reverse_reverse, List.reverse_append, reverse_repeated, List.reverse_reverse] at hback
    exact hback
  · rw [← List.reverse_reverse (dropPieces piece.reverse text.length text.reverse)]
    exact List.reverse_prefix.mpr hsuffix

/-- What does not end with the piece is all that is left. -/
theorem trimEndMatches_append (hpiece : piece ≠ []) (hnot : ¬piece <:+ front) (count : Nat) :
    trimEndMatches piece (front ++ repeated piece count) = front := by
  have hreverse : ¬piece.reverse <+: front.reverse := fun hstart =>
    hnot (List.reverse_prefix.mp hstart)
  have hfuel : count ≤ (front ++ repeated piece count).length := by
    have hlength := Nat.le_mul_of_pos_right count (List.length_pos_of_ne_nil hpiece)
    rw [List.length_append, length_repeated]
    omega
  rw [trimEndMatches, List.reverse_append, reverse_repeated, dropPieces_append hreverse hfuel,
    List.reverse_reverse]

end P2PFileTransfer.Foundation.TextSearch
