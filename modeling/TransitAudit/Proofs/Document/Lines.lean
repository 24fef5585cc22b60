import Mathlib.Algebra.Order.Group.Nat
import Mathlib.Data.List.Basic
import TransitAudit.Document.Lines

/-! Line numbers. Lines start where the text starts and behind each line feed, so the line of an
offset is one more than the number of line feeds in front of it. The starts ascend, and halving
finds how many of them are not behind the offset. -/
namespace TransitAudit.Document

/-- The byte that ends a line. -/
def lineFeed : UInt8 := 10

/-- The number of line feeds among the bytes in front of an offset. -/
def lineFeedsBefore (text : String) (offset : Nat) : Nat :=
  (text.toUTF8.data.toList.take offset).count lineFeed

/-- Line feeds end all lines but the last. -/
def lineCount (text : String) : Nat :=
  text.toList.count '\n' + 1

theorem lineCount_ofList (cs : List Char) :
    lineCount (String.ofList cs) = cs.count '\n' + 1 := by
  rw [lineCount, String.toList_ofList]

/-! Line feeds among bytes and among characters -/

section LineFeeds

theorem utf8EncodeChar_lineFeed : String.utf8EncodeChar '\n' = [lineFeed] :=
  rfl

/-- No other character is written with the byte of a line feed. -/
theorem lineFeed_not_mem_utf8EncodeChar {c : Char} (hc : c ≠ '\n') :
    lineFeed ∉ String.utf8EncodeChar c := by
  have hne : c.val.toNat ≠ 10 := by
    intro h
    exact hc (Char.ext (UInt32.toNat_inj.mp h))
  have hbyte {n : Nat} (hn : n < 256) (hn' : n ≠ 10) : ¬ lineFeed = UInt8.ofNat n := by
    intro h
    have hvalue := congrArg UInt8.toNat h
    rw [UInt8.toNat_ofNat_of_lt' hn] at hvalue
    exact hn' hvalue.symm
  -- all bytes of the longer forms are at least 128
  unfold String.utf8EncodeChar
  dsimp only
  split_ifs with h1 h2 h3
  · simpa using hbyte (by omega) hne
  · simp only [List.mem_cons, List.not_mem_nil, or_false, not_or]
    exact ⟨hbyte (by omega) (by omega), hbyte (by omega) (by omega)⟩
  · simp only [List.mem_cons, List.not_mem_nil, or_false, not_or]
    exact ⟨hbyte (by omega) (by omega), hbyte (by omega) (by omega),
      hbyte (by omega) (by omega)⟩
  · simp only [List.mem_cons, List.not_mem_nil, or_false, not_or]
    exact ⟨hbyte (by omega) (by omega), hbyte (by omega) (by omega),
      hbyte (by omega) (by omega), hbyte (by omega) (by omega)⟩

theorem count_flatMap_utf8EncodeChar (cs : List Char) :
    (cs.flatMap String.utf8EncodeChar).count lineFeed = cs.count '\n' := by
  induction cs with
  | nil => rfl
  | cons c cs ih =>
    rw [List.flatMap_cons, List.count_append, ih, List.count_cons, Nat.add_comm]
    by_cases hc : c = '\n'
    · subst hc
      rw [utf8EncodeChar_lineFeed]
      rfl
    · rw [List.count_eq_zero.mpr (lineFeed_not_mem_utf8EncodeChar hc), if_neg (by simpa using hc)]

theorem count_take_utf8EncodeChar (c : Char) (k : Nat) :
    ((String.utf8EncodeChar c).take k).count lineFeed = if c = '\n' ∧ 1 ≤ k then 1 else 0 := by
  by_cases hc : c = '\n'
  · subst hc
    rw [utf8EncodeChar_lineFeed]
    cases k <;> simp
  · rw [if_neg fun h => hc h.1, List.count_eq_zero]
    exact fun h => lineFeed_not_mem_utf8EncodeChar hc (List.mem_of_mem_take h)

/-- The bytes of a text, character by character. -/
theorem toUTF8_toList (text : String) :
    text.toUTF8.data.toList = text.toList.flatMap String.utf8EncodeChar := by
  rw [String.toUTF8_eq_toByteArray, ← String.utf8Encode_toList]
  simp [List.utf8Encode]

end LineFeeds

/-! The starts of lines -/

section Starts

theorem lt_of_mem_startsAfter {base start : Nat} {cs : List Char}
    (h : start ∈ LineIndex.startsAfter base cs) : base < start := by
  induction cs generalizing base with
  | nil => cases h
  | cons c cs ih =>
    have hsize := c.utf8Size_pos
    rw [LineIndex.startsAfter] at h
    split_ifs at h
    · rcases List.mem_cons.mp h with rfl | h
      · omega
      · have := ih h
        omega
    · have := ih h
      omega

theorem startsAfter_ascending (base : Nat) (cs : List Char) :
    (LineIndex.startsAfter base cs).Pairwise (· < ·) := by
  induction cs generalizing base with
  | nil => exact .nil
  | cons c cs ih =>
    rw [LineIndex.startsAfter]
    split_ifs
    · exact .cons (fun _ h => lt_of_mem_startsAfter h) (ih _)
    · exact ih _

/-- The starts that are not behind an offset follow the line feeds in front of it. -/
theorem countP_startsAfter (base offset : Nat) (cs : List Char) :
    (LineIndex.startsAfter base cs).countP (· ≤ offset) =
      ((cs.flatMap String.utf8EncodeChar).take (offset - base)).count lineFeed := by
  induction cs generalizing base with
  | nil => simp [LineIndex.startsAfter]
  | cons c cs ih =>
    have hrest : offset - base - c.utf8Size = offset - (base + c.utf8Size) := by omega
    rw [List.flatMap_cons, List.take_append, List.count_append, String.length_utf8EncodeChar,
      hrest, ← ih, count_take_utf8EncodeChar, LineIndex.startsAfter]
    by_cases hc : c = '\n'
    · subst hc
      have hsize : ('\n' : Char).utf8Size = 1 := rfl
      have hle : base + 1 ≤ offset ↔ 1 ≤ offset - base := by omega
      rw [if_pos rfl, List.countP_cons, hsize, Nat.add_comm]
      simp only [decide_eq_true_eq, hle, true_and]
    · rw [if_neg hc, if_neg fun h => hc h.1, Nat.zero_add]

end Starts

/-! Halving -/

namespace LineIndex

variable {xs : Array Nat} {bound low high middle : Nat}

theorem le_of_mem_take (hxs : xs.toList.Pairwise (· < ·)) (hm : middle < xs.size) {x : Nat}
    (hx : x ∈ xs.toList.take (middle + 1)) : x ≤ xs[middle] := by
  obtain ⟨i, hi, rfl⟩ := List.mem_take_iff_getElem.mp hx
  rcases Nat.lt_or_ge i middle with h | h
  · exact Nat.le_of_lt (List.pairwise_iff_getElem.mp hxs i middle (by omega) hm h)
  · obtain rfl : i = middle := by omega
    exact Nat.le_refl _

theorem le_of_mem_drop (hxs : xs.toList.Pairwise (· < ·)) (hm : middle < xs.size) {x : Nat}
    (hx : x ∈ xs.toList.drop middle) : xs[middle] ≤ x := by
  obtain ⟨i, hi, rfl⟩ := List.mem_drop_iff_getElem.mp hx
  cases i with
  | zero => exact Nat.le_refl _
  | succ i =>
    exact Nat.le_of_lt (List.pairwise_iff_getElem.mp hxs middle (middle + (i + 1)) hm
      (by omega) (by omega))

/-- The numbers below the one index are at most the bound, those from the other on are not. -/
structure Narrows (xs : Array Nat) (bound low high : Nat) : Prop where
  low_le_high : low ≤ high
  high_le_size : high ≤ xs.size
  below : ∀ x ∈ xs.toList.take low, x ≤ bound
  above : ∀ x ∈ xs.toList.drop high, bound < x

theorem narrows_start (xs : Array Nat) (bound : Nat) : Narrows xs bound 0 xs.size where
  low_le_high := Nat.zero_le _
  high_le_size := Nat.le_refl _
  below := by simp
  above := by
    rw [← Array.length_toList, List.drop_length]
    exact List.forall_mem_nil _

theorem Narrows.upper (hxs : xs.toList.Pairwise (· < ·)) (h : Narrows xs bound low high)
    (hm : middle < high) (hle : xs.getD middle 0 ≤ bound) :
    Narrows xs bound (middle + 1) high := by
  have hsize : middle < xs.size := Nat.lt_of_lt_of_le hm h.high_le_size
  refine ⟨hm, h.high_le_size, ?_, h.above⟩
  intro x hx
  rw [← Array.getElem_eq_getD (h := hsize)] at hle
  exact Nat.le_trans (le_of_mem_take hxs hsize hx) hle

theorem Narrows.lower (hxs : xs.toList.Pairwise (· < ·)) (h : Narrows xs bound low high)
    (hm : middle < high) (hlow : low ≤ middle) (hlt : bound < xs.getD middle 0) :
    Narrows xs bound low middle := by
  have hsize : middle < xs.size := Nat.lt_of_lt_of_le hm h.high_le_size
  refine ⟨hlow, Nat.le_of_lt hsize, h.below, ?_⟩
  intro x hx
  rw [← Array.getElem_eq_getD (h := hsize)] at hlt
  exact Nat.lt_of_lt_of_le hlt (le_of_mem_drop hxs hsize hx)

theorem narrows_countUpTo (hxs : xs.toList.Pairwise (· < ·)) (h : Narrows xs bound low high) :
    Narrows xs bound (countUpTo xs bound low high) (countUpTo xs bound low high) := by
  fun_induction countUpTo xs bound low high with
  | case1 low high hlt middle hle ih =>
    exact ih (h.upper hxs (by omega) hle)
  | case2 low high hlt middle hgt ih =>
    exact ih (h.lower hxs (by omega) (by omega) (by omega))
  | case3 low high hdone =>
    obtain rfl : low = high := Nat.le_antisymm h.low_le_high (by omega)
    exact h

theorem countUpTo_eq_countP (hxs : xs.toList.Pairwise (· < ·)) (bound : Nat) :
    countUpTo xs bound 0 xs.size = xs.toList.countP (· ≤ bound) := by
  have h := narrows_countUpTo hxs (narrows_start xs bound)
  generalize countUpTo xs bound 0 xs.size = k at h
  have hbelow : (xs.toList.take k).countP (· ≤ bound) = k := by
    rw [List.countP_eq_length.mpr fun x hx => by simpa using h.below x hx, List.length_take]
    exact Nat.min_eq_left h.high_le_size
  have habove : (xs.toList.drop k).countP (· ≤ bound) = 0 :=
    List.countP_eq_zero.mpr fun x hx => by simpa using h.above x hx
  rw [← List.take_append_drop k xs.toList, List.countP_append, hbelow, habove, Nat.add_zero]

end LineIndex

/-! The line of an offset -/

section LineOf

variable {text : String}

theorem build_starts_ascending (text : String) :
    (LineIndex.build text).starts.toList.Pairwise (· < ·) :=
  .cons (fun _ h => lt_of_mem_startsAfter h) (startsAfter_ascending 0 text.toList)

theorem countUpTo_build (text : String) (offset : Nat) :
    LineIndex.countUpTo (LineIndex.build text).starts offset 0 (LineIndex.build text).starts.size =
      1 + lineFeedsBefore text offset := by
  rw [LineIndex.countUpTo_eq_countP (build_starts_ascending text)]
  have hcons : (LineIndex.build text).starts.toList =
      0 :: LineIndex.startsAfter 0 text.toList := rfl
  rw [hcons, List.countP_cons_of_pos (by simp), countP_startsAfter, lineFeedsBefore,
    toUTF8_toList, Nat.sub_zero, Nat.add_comm]

/-- In front of any offset there are no more line feeds than in the whole text. -/
theorem lineFeedsBefore_lt_lineCount (text : String) (offset : Nat) :
    lineFeedsBefore text offset < lineCount text := by
  have hall : text.toUTF8.data.toList.count lineFeed = text.toList.count '\n' := by
    rw [toUTF8_toList, count_flatMap_utf8EncodeChar]
  have hle := (List.take_sublist offset text.toUTF8.data.toList).count_le lineFeed
  rw [hall] at hle
  exact Nat.lt_succ_of_le hle

theorem lineFeedsBefore_mono {a b : Nat} (h : a ≤ b) :
    lineFeedsBefore text a ≤ lineFeedsBefore text b :=
  (List.take_sublist_take_left h).count_le lineFeed

/-- Where all line numbers fit a machine word, the line of an offset is one more than the number of
line feeds in front of it. -/
theorem toNat_lineOf_build (htext : lineCount text < 2 ^ 32) (offset : Nat) :
    ((LineIndex.build text).lineOf offset).toNat = 1 + lineFeedsBefore text offset := by
  have hlt := lineFeedsBefore_lt_lineCount text offset
  have hsize : UInt32.size = 2 ^ 32 := rfl
  rw [LineIndex.lineOf, countUpTo_build]
  exact UInt32.toNat_ofNat_of_lt' (by omega)

end LineOf

end TransitAudit.Document
