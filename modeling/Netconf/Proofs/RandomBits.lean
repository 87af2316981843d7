import Mathlib.Data.Nat.Digits.Lemmas
import Mathlib.Order.Interval.Finset.Nat
import Netconf.Proofs.MessageId

/-!
# The random bits of a message id

A fresh id is read as a number of 128 bits. Six of them mark it as a random id, four by the version
and two by the variant, and the others are those of the random octets, each in its place
(`testBit_octetsValue_stamp`). So ids are equal exactly if the octets agree in the other 122 bits
(`fresh_randomBits`).
-/

namespace Netconf.Text

/-! ## Numerals read back -/

lemma digitValue_hexDigit : ∀ d < 16, digitValue (hexDigit d) = d := by decide

/-- A numeral that is put behind another moves its value by as many digits. -/
lemma numeralValue_append_hexadecimal (s : List Char) (w n : ℕ) :
    numeralValue 16 (s ++ hexadecimal w n) = numeralValue 16 s * 16 ^ w + n % 16 ^ w := by
  induction w generalizing n with
  | zero =>
    rw [hexadecimal, List.append_nil]
    omega
  | succ w ih =>
    have hdigit : digitValue (hexDigit (n % 16)) = n % 16 :=
      digitValue_hexDigit _ (Nat.mod_lt n (by decide))
    have hvalue : numeralValue 16 (s ++ hexadecimal w (n / 16) ++ [hexDigit (n % 16)])
        = numeralValue 16 (s ++ hexadecimal w (n / 16)) * 16 + n % 16 := by
      rw [numeralValue, List.foldl_append, List.foldl_cons, List.foldl_nil, hdigit]
      rfl
    rw [hexadecimal, ← List.append_assoc, hvalue, ih, pow_succ', Nat.mod_mul]
    ring

end Netconf.Text

namespace Netconf.MessageId

open Netconf.Text

/-! ## Octets as a number -/

/-- The number that octets denote, the most significant octet first. -/
def octetsValue (bs : List UInt8) : ℕ := Nat.ofDigits 256 (bs.reverse.map UInt8.toNat)

lemma octetsValue_append (bs : List UInt8) (b : UInt8) :
    octetsValue (bs ++ [b]) = octetsValue bs * 256 + b.toNat := by
  rw [octetsValue, List.reverse_concat, List.map_cons, Nat.ofDigits_cons, octetsValue]
  ring

lemma digits_append (as bs : List UInt8) : digits (as ++ bs) = digits as ++ digits bs :=
  List.flatMap_append

/-- The digits of octets denote the same number. -/
lemma numeralValue_digits (bs : List UInt8) : numeralValue 16 (digits bs) = octetsValue bs := by
  induction bs using List.reverseRecOn with
  | nil => rfl
  | append_singleton bs b ih =>
    have hb : b.toNat < 16 ^ 2 := b.toNat_lt
    have hdigits : digits [b] = hexadecimal 2 b.toNat := List.flatMap_singleton _ b
    rw [digits_append, hdigits, numeralValue_append_hexadecimal, ih, octetsValue_append,
      Nat.mod_eq_of_lt hb]
    rfl

/-- Eight bits of the number are those of an octet. -/
lemma testBit_ofDigits (bs : List UInt8) (k : ℕ) {j : ℕ} (hj : j < 8) :
    (Nat.ofDigits 256 (bs.map UInt8.toNat)).testBit (8 * k + j)
      = (bs.getD k 0).toNat.testBit j := by
  induction bs generalizing k with
  | nil => simp
  | cons b bs ih =>
    have hb : b.toNat < 2 ^ 8 := b.toNat_lt
    rw [List.map_cons, Nat.ofDigits_cons, Nat.add_comm, show 256 = 2 ^ 8 by rfl,
      Nat.testBit_two_pow_mul_add _ hb]
    cases k with
    | zero =>
      rw [if_pos (by omega), Nat.mul_zero, Nat.zero_add]
      rfl
    | succ k =>
      rw [if_neg (by omega), show 8 * (k + 1) + j - 8 = 8 * k + j by omega]
      exact ih k

lemma lt_of_mem_octets (bs : List UInt8) : ∀ d ∈ bs.map UInt8.toNat, d < 256 := by
  intro d hd
  obtain ⟨b, -, rfl⟩ := List.mem_map.1 hd
  exact b.toNat_lt

lemma octetsValue_lt (v : Vector UInt8 16) : octetsValue v.toList < 2 ^ 128 := by
  have hlt := Nat.ofDigits_lt_base_pow_length (by decide : 1 < 256)
    (lt_of_mem_octets v.toList.reverse)
  rwa [List.length_map, List.length_reverse, Vector.length_toList] at hlt

/-- Sixteen octets have no further bits. -/
lemma testBit_octetsValue_of_le (v : Vector UInt8 16) {i : ℕ} (hi : 128 ≤ i) :
    (octetsValue v.toList).testBit i = false :=
  Nat.testBit_lt_two_pow
    (Nat.lt_of_lt_of_le (octetsValue_lt v) (Nat.pow_le_pow_right (by decide) hi))

/-- The bits of sixteen octets, counted from the end of the last. -/
lemma testBit_octetsValue (v : Vector UInt8 16) {i : ℕ} (hi : i < 128) :
    (octetsValue v.toList).testBit i = (v[15 - i / 8]).toNat.testBit (i % 8) := by
  have hplace : v.toList.reverse.getD (i / 8) 0 = v[15 - i / 8] := by
    rw [List.getD_eq_getElem?_getD, List.getElem?_eq_getElem (by simp; omega),
      List.getElem_reverse, Vector.getElem_toList]
    simp
  rw [← hplace, ← testBit_ofDigits _ _ (Nat.mod_lt i (by decide)), Nat.div_add_mod, octetsValue]

/-- Sixteen octets are known by their number. -/
lemma octetsValue_inj {v w : Vector UInt8 16}
    (h : octetsValue v.toList = octetsValue w.toList) : v = w := by
  have hdigits := Nat.ofDigits_inj_of_len_eq (by decide : 1 < 256) (by simp)
    (lt_of_mem_octets _) (lt_of_mem_octets _) h
  have hreverse := (List.map_inj_right fun a b => UInt8.toNat_inj.1).1 hdigits
  exact Vector.toList_inj.1 (List.reverse_inj.1 hreverse)

/-! ## The bits that are set -/

/-- The places of the bits that mark an id as a random one, counted from the end of the last octet:
the two of the variant, and the four of the version. -/
def markedBits : Finset ℕ := {62, 63, 76, 77, 78, 79}

/-- The places of the bits that are left as they are. -/
def randomBits : Finset ℕ := Finset.range 128 \ markedBits

section Marked

variable {mark low b : UInt8} {m n : ℕ} (hmark : mark.toNat = 2 ^ m) (hlow : low.toNat = 2 ^ n - 1)
variable (hle : n ≤ m)

include hmark hlow hle

/-- The low bits of an octet are kept, and of the others one is set. -/
lemma testBit_marked (j : ℕ) :
    (mark ||| b &&& low).toNat.testBit j
      = if j < n then b.toNat.testBit j else decide (m = j) := by
  rw [UInt8.toNat_or, UInt8.toNat_and, hmark, hlow, Nat.testBit_or, Nat.testBit_and,
    Nat.testBit_two_pow, Nat.testBit_two_pow_sub_one]
  by_cases hj : j < n
  · rw [if_pos hj, decide_eq_false (by omega), decide_eq_true hj, Bool.false_or, Bool.and_true]
  · rw [if_neg hj, decide_eq_false hj, Bool.and_false, Bool.or_false]

lemma toNat_marked : (mark ||| b &&& low).toNat = 2 ^ m + b.toNat % 2 ^ n := by
  have hlt : b.toNat % 2 ^ n < 2 ^ m :=
    Nat.lt_of_lt_of_le (Nat.mod_lt _ (Nat.two_pow_pos n)) (Nat.pow_le_pow_right (by decide) hle)
  have hor := Nat.two_pow_add_eq_or_of_lt hlt 1
  rw [Nat.mul_one] at hor
  rw [UInt8.toNat_or, UInt8.toNat_and, hmark, hlow, Nat.and_two_pow_sub_one_eq_mod, hor]

end Marked

section Stamp

variable (v : Vector UInt8 16)

/-- Two octets are marked, the seventh and the ninth. -/
lemma stamp_getElem {k : ℕ} (hk : k < 16) :
    (stamp v)[k] = if 8 = k then (0x80 : UInt8) ||| v[8] &&& 0x3F
      else if 6 = k then (0x40 : UInt8) ||| v[6] &&& 0x0F else v[k] := by
  rw [stamp, Vector.getElem_set, Vector.getElem_set]

/-- **Six bits are set, and the others are left as they are.** -/
lemma testBit_octetsValue_stamp (i : ℕ) :
    (octetsValue (stamp v).toList).testBit i =
      if i ∈ markedBits then decide (i = 63 ∨ i = 78) else (octetsValue v.toList).testBit i := by
  have hmarked : i ∈ markedBits ↔ i = 62 ∨ i = 63 ∨ 76 ≤ i ∧ i < 80 := by
    simp only [markedBits, Finset.mem_insert, Finset.mem_singleton]
    omega
  simp only [hmarked]
  by_cases hi : i < 128
  · rw [testBit_octetsValue _ hi, testBit_octetsValue _ hi, stamp_getElem]
    by_cases hvariant : 8 = 15 - i / 8
    · -- the ninth octet has the places from 56 to 63, of which the last two are marked
      rw [if_pos hvariant, testBit_marked (m := 7) (n := 6) rfl rfl (by decide)]
      simp only [← hvariant]
      by_cases hlow : i % 8 < 6
      · rw [if_pos hlow, if_neg (by omega)]
      · rw [if_neg hlow, if_pos (by omega)]
        exact decide_eq_decide.2 (by omega)
    · rw [if_neg hvariant]
      by_cases hversion : 6 = 15 - i / 8
      · -- the seventh octet has the places from 72 to 79, of which the last four are marked
        rw [if_pos hversion, testBit_marked (m := 6) (n := 4) rfl rfl (by decide)]
        simp only [← hversion]
        by_cases hlow : i % 8 < 4
        · rw [if_pos hlow, if_neg (by omega)]
        · rw [if_neg hlow, if_pos (by omega)]
          exact decide_eq_decide.2 (by omega)
      · rw [if_neg hversion, if_neg (by omega)]
  · have hfurther : 128 ≤ i := Nat.le_of_not_lt hi
    rw [testBit_octetsValue_of_le _ hfurther, testBit_octetsValue_of_le _ hfurther,
      if_neg (by omega)]

end Stamp

lemma octetsValue_stamp_eq_iff {v w : Vector UInt8 16} :
    octetsValue (stamp v).toList = octetsValue (stamp w).toList ↔
      ∀ i ∈ randomBits, (octetsValue v.toList).testBit i = (octetsValue w.toList).testBit i := by
  constructor
  · intro h i hi
    have hkept : i ∉ markedBits := (Finset.mem_sdiff.1 hi).2
    have hbit := congrArg (Nat.testBit · i) h
    simpa only [testBit_octetsValue_stamp, if_neg hkept] using hbit
  · intro h
    apply Nat.eq_of_testBit_eq
    intro i
    rw [testBit_octetsValue_stamp, testBit_octetsValue_stamp]
    by_cases hmarked : i ∈ markedBits
    · rw [if_pos hmarked, if_pos hmarked]
    · rw [if_neg hmarked, if_neg hmarked]
      by_cases hi : i < 128
      · exact h i (Finset.mem_sdiff.2 ⟨Finset.mem_range.2 hi, hmarked⟩)
      · have hfurther : 128 ≤ i := Nat.le_of_not_lt hi
        rw [testBit_octetsValue_of_le _ hfurther, testBit_octetsValue_of_le _ hfurther]

/-! ## Ids read back -/

/-- The number that the digits of an id denote. -/
def value (id : List Char) : ℕ := numeralValue 16 (id.filter (· != '-'))

/-- The groups of an id. -/
def groups (id : List Char) : List (List Char) := id.splitOn '-'

/-- The form of a random id: lower case hexadecimal digits in groups of 8, 4, 4, 4 and 12 with
hyphens between them, of which the third starts with the version and the fourth with the variant. -/
structure IsRandomId (id : List Char) : Prop where
  length : id.length = 36
  characters : ∀ c ∈ id, c = '-' ∨ c ∈ "0123456789abcdef".toList
  lengths : (groups id).map List.length = [8, 4, 4, 4, 12]
  version : ∀ g ∈ (groups id)[2]?, g.head? = some '4'
  variant : ∀ g ∈ (groups id)[3]?, ∃ c ∈ "89ab".toList, g.head? = some c

lemma hyphen_not_mem_digits (bs : List UInt8) : '-' ∉ digits bs := by
  intro hmem
  obtain ⟨d, hd, hdigit⟩ := exists_of_mem_digits hmem
  have hdigits : ∀ d < 16, '-' ≠ hexDigit d := by decide
  exact hdigits d hd hdigit

/-- Without its hyphens an id is the digits of its octets. -/
lemma filter_grouped (bs : List UInt8) : (grouped bs).filter (· != '-') = digits bs := by
  have hdigits (as : List UInt8) : (digits as).filter (· != '-') = digits as := by
    rw [List.filter_eq_self]
    intro c hc
    rw [bne_iff_ne]
    rintro rfl
    exact hyphen_not_mem_digits as hc
  have hoctets : bs.take 4 ++ ((bs.drop 4).take 2 ++ ((bs.drop 6).take 2 ++
      ((bs.drop 8).take 2 ++ bs.drop 10))) = bs := by
    have hsplit (k n : ℕ) : (bs.drop k).take n ++ bs.drop (k + n) = bs.drop k := by
      rw [← List.drop_drop, List.take_append_drop]
    rw [hsplit 8 2, hsplit 6 2, hsplit 4 2, List.take_append_drop]
  have hgroup (as : List UInt8) : ('-' :: digits as).filter (· != '-') = digits as := by
    rw [List.filter_cons_of_neg (by decide), hdigits]
  simp only [grouped, List.filter_append, hdigits, hgroup, ← digits_append, List.append_assoc,
    hoctets]

/-- The digits are between the hyphens. -/
lemma groups_grouped (bs : List UInt8) :
    groups (grouped bs) = [digits (bs.take 4), digits ((bs.drop 4).take 2),
      digits ((bs.drop 6).take 2), digits ((bs.drop 8).take 2), digits (bs.drop 10)] := by
  have hdigits (as : List UInt8) : (digits as).splitOn '-' = [digits as] :=
    List.splitOn_eq_singleton (hyphen_not_mem_digits as)
  simp only [groups, grouped, List.splitOn_append_cons_self, hdigits]
  rfl

lemma value_ofRandom (v : Vector UInt8 16) :
    value (ofRandom v) = octetsValue (stamp v).toList := by
  rw [value, ofRandom, filter_grouped, numeralValue_digits]

/-- A group of octets starts with the first digit of its first octet. -/
lemma head?_digits_take (v : Vector UInt8 16) {k n : ℕ} (hk : k < 16) (hn : 0 < n) :
    (digits ((v.toList.drop k).take n)).head? = some (hexDigit (v[k].toNat / 16 % 16)) := by
  have hlength : k < v.toList.length := by rwa [Vector.length_toList]
  obtain ⟨n, rfl⟩ := Nat.exists_eq_add_of_le' hn
  rw [List.drop_eq_getElem_cons hlength, List.take_succ_cons, Vector.getElem_toList]
  rfl

lemma isRandomId_ofRandom (v : Vector UInt8 16) : IsRandomId (ofRandom v) where
  length := length_ofRandom v
  characters := by
    have hdigits : ∀ d < 16, hexDigit d ∈ "0123456789abcdef".toList := by decide
    intro c hc
    rcases mem_ofRandom hc with hhyphen | ⟨d, hd, rfl⟩
    · exact Or.inl hhyphen
    · exact Or.inr (hdigits d hd)
  lengths := by
    rw [ofRandom, groups_grouped]
    simp [length_digits]
  version := by
    rw [ofRandom, groups_grouped]
    rintro g ⟨⟩
    have hoctet : ((0x40 : UInt8) ||| v[6] &&& 0x0F).toNat = 2 ^ 6 + v[6].toNat % 2 ^ 4 :=
      toNat_marked rfl rfl (by decide)
    rw [head?_digits_take _ (by decide) (by decide), stamp_getElem]
    show some (hexDigit (((0x40 : UInt8) ||| v[6] &&& 0x0F).toNat / 16 % 16)) = some '4'
    rw [hoctet, show (2 ^ 6 + v[6].toNat % 2 ^ 4) / 16 % 16 = 4 by omega]
    rfl
  variant := by
    rw [ofRandom, groups_grouped]
    rintro g ⟨⟩
    have hdigits : ∀ d < 4, hexDigit (8 + d) ∈ "89ab".toList := by decide
    have hoctet : ((0x80 : UInt8) ||| v[8] &&& 0x3F).toNat = 2 ^ 7 + v[8].toNat % 2 ^ 6 :=
      toNat_marked rfl rfl (by decide)
    refine ⟨_, hdigits (v[8].toNat % 64 / 16) (by omega), ?_⟩
    rw [head?_digits_take _ (by decide) (by decide), stamp_getElem]
    show some (hexDigit (((0x80 : UInt8) ||| v[8] &&& 0x3F).toNat / 16 % 16)) = _
    rw [hoctet, show (2 ^ 7 + v[8].toNat % 2 ^ 6) / 16 % 16 = 8 + v[8].toNat % 64 / 16 by omega]

/-- Octets make the same id exactly if they agree in the random bits. -/
lemma ofRandom_eq_iff {v w : Vector UInt8 16} :
    ofRandom v = ofRandom w ↔
      ∀ i ∈ randomBits, (octetsValue v.toList).testBit i = (octetsValue w.toList).testBit i := by
  rw [← octetsValue_stamp_eq_iff]
  constructor
  · intro h
    rw [← value_ofRandom, ← value_ofRandom, h]
  · intro h
    rw [ofRandom, octetsValue_inj h, ofRandom]

/-- **A fresh id loses exactly six of the random bits.** Whatever the random octets are, they make
an id of the random form. Its digits denote the number of the octets with the variant and the
version set to `10` and `0100` in binary, and so two ids are the same exactly if the octets agree in
the other 122 bits. -/
theorem fresh_randomBits (v w : Vector UInt8 16) :
    (∃ id, fresh (.ok v) = .ok id ∧ IsRandomId id ∧
      ∀ i, (value id).testBit i =
        if i ∈ markedBits then decide (i = 63 ∨ i = 78) else (octetsValue v.toList).testBit i) ∧
    randomBits.card = 122 ∧
    (fresh (.ok v) = fresh (.ok w) ↔
      ∀ i ∈ randomBits, (octetsValue v.toList).testBit i = (octetsValue w.toList).testBit i) := by
  refine ⟨⟨ofRandom v, rfl, isRandomId_ofRandom v, ?_⟩, by decide, ?_⟩
  · intro i
    rw [value_ofRandom]
    exact testBit_octetsValue_stamp v i
  · show Except.ok (ofRandom v) = Except.ok (ofRandom w) ↔ _
    rw [Except.ok.injEq, ofRandom_eq_iff]

/-- Octets without a bit but the marked ones, which all have the other value than in an id. -/
def markedOctets : Vector UInt8 16 := #v[0, 0, 0, 0, 0, 0, 0xB0, 0, 0x40, 0, 0, 0, 0, 0, 0, 0]

/-- The marked bits do not matter, and the least of the others does. -/
theorem fresh_markedOctets :
    (∀ i ∈ randomBits, (octetsValue markedOctets.toList).testBit i
      = (octetsValue (Vector.replicate 16 0).toList).testBit i) ∧
    fresh (.ok markedOctets) = fresh (.ok (.replicate 16 0)) ∧
    fresh (.ok markedOctets) ≠ fresh (.ok (markedOctets.set 15 1)) := by
  have hsame : ∀ i ∈ randomBits, (octetsValue markedOctets.toList).testBit i
      = (octetsValue (Vector.replicate 16 0).toList).testBit i := by decide +kernel
  have hother : ¬ ∀ i ∈ randomBits, (octetsValue markedOctets.toList).testBit i
      = (octetsValue (markedOctets.set 15 1).toList).testBit i := by decide +kernel
  have hkept := (fresh_randomBits markedOctets (.replicate 16 0)).2.2
  have hlost := (fresh_randomBits markedOctets (markedOctets.set 15 1)).2.2
  exact ⟨hsame, hkept.2 hsame, fun h => hother (hlost.1 h)⟩

end Netconf.MessageId
