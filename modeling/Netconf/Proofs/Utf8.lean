import Mathlib.Data.List.Basic
import Mathlib.Tactic.Common
import Netconf.Text.Utf8

/-!
# UTF-8 has one form for every text

`decode` accepts exactly the octets that `encode` writes, and gives back the text they were
written from. One octet sequence at a time this is `decodeChar_append` (what is written is read
back, whatever follows it) and `encodeChar_append_of_decodeChar` (only what is written is read);
the texts follow by induction. An octet of ASCII in a text is a character of it and no part of
another one, so that a text that begins with ASCII stands where its octets stand
(`exists_of_isPrefix_drop_encode`).
-/

namespace Netconf.Utf8

open Netconf.Outcome

/-! ## Numbers of characters -/

/-- The number of a character is no surrogate and not beyond the last code point. -/
lemma toNat_valid (c : Char) : c.toNat < 0xD800 ∨ 0xDFFF < c.toNat ∧ c.toNat < 0x110000 := c.valid

lemma toNat_ofNat_of_valid {n : ℕ} (h : n < 0xD800 ∨ 0xDFFF < n ∧ n < 0x110000) :
    (Char.ofNat n).toNat = n := by
  have hv : n.isValidChar := h
  rw [Char.ofNat, dif_pos hv]
  rfl

lemma toNat_ofNat_of_lt {n : ℕ} (h : n < 256) : (UInt8.ofNat n).toNat = n := by
  rw [UInt8.toNat_ofNat']
  omega

/-! ## Continuation octets -/

lemma continuation_cons {read low high n : ℕ} {rest : List UInt8}
    (hlow : low ≤ n) (hhigh : n ≤ high) (hn : n < 256) :
    continuation read low high (UInt8.ofNat n :: rest) = .ok (n - 0x80, rest) := by
  rw [continuation, toNat_ofNat_of_lt hn, if_pos]
  simp only [hlow, hhigh, decide_true, Bool.and_self]

lemma exists_of_continuation {read low high x : ℕ} {bs rest : List UInt8}
    (h : continuation read low high bs = .ok (x, rest)) :
    ∃ b, bs = b :: rest ∧ low ≤ b.toNat ∧ b.toNat ≤ high ∧ x = b.toNat - 0x80 := by
  unfold continuation at h
  split at h
  · cases h
  · next b bs =>
    split at h
    · next hb =>
      simp only [Bool.and_eq_true, decide_eq_true_eq] at hb
      simp only [Except.ok.injEq, Prod.mk.injEq] at h
      exact ⟨b, by rw [h.2], hb.1, hb.2, h.1.symm⟩
    · cases h

/-! ## One character -/

/-- The octets of a character are read as that character, whatever follows them. -/
theorem decodeChar_append {c : Char} {b : UInt8} {bs : List UInt8} (rest : List UInt8)
    (h : encodeChar c = b :: bs) : decodeChar b (bs ++ rest) = .ok (c, rest) := by
  -- one case for each number of octets; the sums put the number of the character together again
  have hc := toNat_valid c
  have hback : Char.ofNat c.toNat = c := Char.ofNat_toNat c
  unfold encodeChar at h
  dsimp only at h
  unfold decodeChar
  dsimp only
  split at h
  · next h₁ =>
    obtain ⟨rfl, rfl⟩ := List.cons.inj h
    rw [toNat_ofNat_of_lt (by omega), if_pos h₁, hback]
    rfl
  split at h
  · next h₁ h₂ =>
    obtain ⟨rfl, rfl⟩ := List.cons.inj h
    have hsum : (0xC0 + c.toNat / 0x40 - 0xC0) * 0x40 + (0x80 + c.toNat % 0x40 - 0x80)
        = c.toNat := by omega
    rw [toNat_ofNat_of_lt (by omega), if_neg (by omega), if_neg (by omega), if_pos (by omega),
      List.cons_append, continuation_cons (by omega) (by omega) (by omega), ok_bind, hsum, hback]
    rfl
  split at h
  · next h₁ h₂ h₃ =>
    obtain ⟨rfl, rfl⟩ := List.cons.inj h
    have hsum : (0xE0 + c.toNat / 0x1000 - 0xE0) * 0x1000
        + (0x80 + c.toNat / 0x40 % 0x40 - 0x80) * 0x40 + (0x80 + c.toNat % 0x40 - 0x80)
        = c.toNat := by omega
    rw [toNat_ofNat_of_lt (by omega), if_neg (by omega), if_neg (by omega), if_neg (by omega),
      if_pos (by omega), List.cons_append, List.cons_append,
      continuation_cons (by split <;> omega) (by split <;> omega) (by omega), ok_bind,
      continuation_cons (by omega) (by omega) (by omega), ok_bind, hsum, hback]
    rfl
  · next h₁ h₂ h₃ =>
    obtain ⟨rfl, rfl⟩ := List.cons.inj h
    have hsum : (0xF0 + c.toNat / 0x40000 - 0xF0) * 0x40000
        + (0x80 + c.toNat / 0x1000 % 0x40 - 0x80) * 0x1000
        + (0x80 + c.toNat / 0x40 % 0x40 - 0x80) * 0x40 + (0x80 + c.toNat % 0x40 - 0x80)
        = c.toNat := by omega
    rw [toNat_ofNat_of_lt (by omega), if_neg (by omega), if_neg (by omega), if_neg (by omega),
      if_neg (by omega), if_pos (by omega), List.cons_append, List.cons_append, List.cons_append,
      continuation_cons (by split <;> omega) (by split <;> omega) (by omega), ok_bind,
      continuation_cons (by omega) (by omega) (by omega), ok_bind,
      continuation_cons (by omega) (by omega) (by omega), ok_bind, hsum, hback]
    rfl

/-- Only the octets of a character are read as that character. -/
theorem encodeChar_append_of_decodeChar {b : UInt8} {bs rest : List UInt8} {c : Char}
    (h : decodeChar b bs = .ok (c, rest)) : encodeChar c ++ rest = b :: bs := by
  have hb : b.toNat < 256 := b.toNat_lt
  have hback : ∀ x : UInt8, UInt8.ofNat x.toNat = x := fun x => UInt8.ofNat_toNat
  -- the first octet tells how many there are
  simp only [decodeChar] at h
  split at h
  · next h₁ =>
    simp only [Except.ok.injEq, Prod.mk.injEq] at h
    obtain ⟨rfl, rfl⟩ := h
    have hn := toNat_ofNat_of_valid (n := b.toNat) (by omega)
    rw [encodeChar, hn, if_pos h₁, hback]
    rfl
  split at h
  · cases h
  split at h
  · obtain ⟨⟨x, r⟩, hx, hret⟩ := bind_eq_ok_iff.1 h
    obtain ⟨b₁, rfl, hlow, hhigh, hx₁⟩ := exists_of_continuation hx
    simp only [pure, Except.pure, Except.ok.injEq, Prod.mk.injEq] at hret
    obtain ⟨rfl, rfl⟩ := hret
    have hn := toNat_ofNat_of_valid (n := (b.toNat - 0xC0) * 0x40 + x) (by omega)
    have h₀ : 0xC0 + ((b.toNat - 0xC0) * 0x40 + x) / 0x40 = b.toNat := by omega
    have h₁ : 0x80 + ((b.toNat - 0xC0) * 0x40 + x) % 0x40 = b₁.toNat := by omega
    unfold encodeChar
    dsimp only
    rw [hn, if_neg (by omega), if_pos (by omega), h₀, h₁, hback, hback]
    rfl
  split at h
  · obtain ⟨⟨x, r⟩, hx, hmore⟩ := bind_eq_ok_iff.1 h
    obtain ⟨⟨y, r'⟩, hy, hret⟩ := bind_eq_ok_iff.1 hmore
    obtain ⟨b₁, rfl, hlow, hhigh, hx₁⟩ := exists_of_continuation hx
    obtain ⟨b₂, rfl, hlow₂, hhigh₂, hy₂⟩ := exists_of_continuation hy
    simp only [pure, Except.pure, Except.ok.injEq, Prod.mk.injEq] at hret
    obtain ⟨rfl, rfl⟩ := hret
    -- the bounds on the second octet keep the number beyond 0x800 and off the surrogates
    have hbound : 0x800 ≤ (b.toNat - 0xE0) * 0x1000 + x * 0x40
        ∧ (b.toNat = 0xED → b₁.toNat ≤ 0x9F) ∧ 0x80 ≤ b₁.toNat ∧ b₁.toNat ≤ 0xBF := by
      split at hlow <;> split at hhigh <;> omega
    set n := (b.toNat - 0xE0) * 0x1000 + x * 0x40 + y with hn'
    have hn := toNat_ofNat_of_valid (n := n) (by omega)
    have h₀ : 0xE0 + n / 0x1000 = b.toNat := by omega
    have h₁ : 0x80 + n / 0x40 % 0x40 = b₁.toNat := by omega
    have h₂ : 0x80 + n % 0x40 = b₂.toNat := by omega
    unfold encodeChar
    dsimp only
    rw [hn, if_neg (by omega), if_neg (by omega), if_pos (by omega), h₀, h₁, h₂, hback, hback,
      hback]
    rfl
  split at h
  · obtain ⟨⟨x, r⟩, hx, hmore⟩ := bind_eq_ok_iff.1 h
    obtain ⟨⟨y, r'⟩, hy, hlast⟩ := bind_eq_ok_iff.1 hmore
    obtain ⟨⟨z, r''⟩, hz, hret⟩ := bind_eq_ok_iff.1 hlast
    obtain ⟨b₁, rfl, hlow, hhigh, hx₁⟩ := exists_of_continuation hx
    obtain ⟨b₂, rfl, hlow₂, hhigh₂, hy₂⟩ := exists_of_continuation hy
    obtain ⟨b₃, rfl, hlow₃, hhigh₃, hz₃⟩ := exists_of_continuation hz
    simp only [pure, Except.pure, Except.ok.injEq, Prod.mk.injEq] at hret
    obtain ⟨rfl, rfl⟩ := hret
    -- the bounds on the second octet keep the number between 0x10000 and the last code point
    have hbound : 0x10000 ≤ (b.toNat - 0xF0) * 0x40000 + x * 0x1000
        ∧ (b.toNat = 0xF4 → b₁.toNat ≤ 0x8F) ∧ 0x80 ≤ b₁.toNat ∧ b₁.toNat ≤ 0xBF := by
      split at hlow <;> split at hhigh <;> omega
    set n := (b.toNat - 0xF0) * 0x40000 + x * 0x1000 + y * 0x40 + z with hn'
    have hn := toNat_ofNat_of_valid (n := n) (by omega)
    have h₀ : 0xF0 + n / 0x40000 = b.toNat := by omega
    have h₁ : 0x80 + n / 0x1000 % 0x40 = b₁.toNat := by omega
    have h₂ : 0x80 + n / 0x40 % 0x40 = b₂.toNat := by omega
    have h₃ : 0x80 + n % 0x40 = b₃.toNat := by omega
    unfold encodeChar
    dsimp only
    rw [hn, if_neg (by omega), if_neg (by omega), if_neg (by omega), h₀, h₁, h₂, h₃, hback, hback,
      hback, hback]
    rfl
  · cases h

/-! ## Texts -/

lemma encodeChar_ne_nil (c : Char) : encodeChar c ≠ [] := by
  unfold encodeChar
  dsimp only
  split_ifs <;> simp

lemma decodeFrom_cons {offset : ℕ} {b : UInt8} {bs rest : List UInt8} {c : Char}
    (h : decodeChar b bs = .ok (c, rest)) :
    decodeFrom offset (b :: bs)
      = (decodeFrom (offset + (encodeChar c).length) rest).map (c :: ·) := by
  rw [decodeFrom]
  split
  · next heq => simp [h] at heq
  · next heq =>
    rw [h] at heq
    cases heq
    rfl

lemma decodeFrom_encode (s : List Char) (offset : ℕ) : decodeFrom offset (encode s) = .ok s := by
  induction s generalizing offset with
  | nil => rw [encode_nil, decodeFrom]
  | cons c s ih =>
    obtain ⟨b, bs, hc⟩ := List.exists_cons_of_ne_nil (encodeChar_ne_nil c)
    rw [encode_cons, hc, List.cons_append, decodeFrom_cons (decodeChar_append (encode s) hc), ih]
    rfl

lemma encode_of_decodeFrom {offset : ℕ} {bs : List UInt8} {s : List Char}
    (h : decodeFrom offset bs = .ok s) : encode s = bs := by
  -- on the number of octets, of which each character takes one at least
  induction hn : bs.length using Nat.strongRecOn generalizing offset bs s with
  | ind n ih =>
    cases bs with
    | nil =>
      rw [decodeFrom] at h
      cases h
      rfl
    | cons b bs =>
      cases hd : decodeChar b bs with
      | error e =>
        rw [decodeFrom] at h
        split at h
        · cases h
        · next heq => simp [hd] at heq
      | ok r =>
        obtain ⟨c, rest⟩ := r
        rw [decodeFrom_cons hd] at h
        obtain ⟨t, ht, rfl⟩ := map_eq_ok_iff.1 h
        have hlen := length_of_decodeChar hd
        have hrest := ih rest.length (by simp only [List.length_cons] at hn; omega) ht rfl
        rw [encode_cons, hrest, encodeChar_append_of_decodeChar hd]

/-- What is written is read back. -/
theorem decode_encode (s : List Char) : decode (encode s) = .ok s := decodeFrom_encode s 0

/-- Octets are read as a text exactly when they are its written form. -/
theorem decode_eq_ok_iff {bs : List UInt8} {s : List Char} : decode bs = .ok s ↔ bs = encode s := by
  constructor
  · intro h
    exact (encode_of_decodeFrom h).symm
  · rintro rfl
    exact decode_encode s

/-- Texts with the same octets are the same. -/
lemma encode_injective : Function.Injective encode := by
  intro s t h
  have hdecode := decode_encode s
  rw [h, decode_encode t] at hdecode
  exact (Except.ok.inj hdecode).symm

/-- No character begins with the octets of another, so texts begin with each other exactly where
their octets do. -/
theorem isPrefix_encode_iff {p s : List Char} : encode p <+: encode s ↔ p <+: s := by
  constructor
  · intro h
    induction p generalizing s with
    | nil => exact List.nil_prefix
    | cons a p ih =>
      obtain ⟨rest, hrest⟩ := h
      obtain ⟨b, bs, ha⟩ := List.exists_cons_of_ne_nil (encodeChar_ne_nil a)
      rw [encode_cons, ha, List.cons_append, List.cons_append, List.append_assoc] at hrest
      cases s with
      | nil => cases hrest
      | cons c s =>
        obtain ⟨b', bs', hc⟩ := List.exists_cons_of_ne_nil (encodeChar_ne_nil c)
        rw [encode_cons, hc, List.cons_append] at hrest
        obtain ⟨rfl, htail⟩ := List.cons.inj hrest
        -- both texts begin with the character that is read from the same octets
        have hread := decodeChar_append (encode p ++ rest) ha
        rw [htail, decodeChar_append (encode s) hc] at hread
        obtain ⟨rfl, hmore⟩ := Prod.mk.inj (Except.ok.inj hread)
        exact (List.prefix_cons_inj c).2 (ih ⟨rest, hmore.symm⟩)
  · rintro ⟨t, rfl⟩
    rw [encode_append]
    exact List.prefix_append _ _

/-! ## ASCII in a text -/

/-- The octets of a character behind its first one are beyond ASCII. -/
lemma le_toNat_of_mem_tail {c : Char} {b : UInt8} (h : b ∈ (encodeChar c).tail) :
    0x80 ≤ b.toNat := by
  unfold encodeChar at h
  dsimp only at h
  split_ifs at h
  · cases h
  · rw [List.tail_cons, List.mem_singleton] at h
    rw [h, toNat_ofNat_of_lt (by omega)]
    omega
  · simp only [List.tail_cons, List.mem_cons, List.not_mem_nil, or_false] at h
    rcases h with h | h
    all_goals
      rw [h, toNat_ofNat_of_lt (by omega)]
      omega
  · simp only [List.tail_cons, List.mem_cons, List.not_mem_nil, or_false] at h
    rcases h with h | h | h
    all_goals
      rw [h, toNat_ofNat_of_lt (by omega)]
      omega

/-- What stands in front of an octet of ASCII in a text is a text, and so is the rest. -/
lemma exists_of_encode_eq_append {s : List Char} {a rest : List UInt8} {b : UInt8}
    (hb : b.toNat < 0x80) (h : encode s = a ++ b :: rest) :
    ∃ t u, s = t ++ u ∧ a = encode t ∧ b :: rest = encode u := by
  induction s generalizing a with
  | nil => exact absurd h.symm (List.append_ne_nil_of_right_ne_nil a (List.cons_ne_nil b rest))
  | cons c s ih =>
    by_cases ha : a = []
    · subst ha
      exact ⟨[], c :: s, rfl, rfl, h.symm⟩
    · obtain ⟨x, a, rfl⟩ := List.exists_cons_of_ne_nil ha
      obtain ⟨y, bs, hc⟩ := List.exists_cons_of_ne_nil (encodeChar_ne_nil c)
      rw [encode_cons, hc, List.cons_append, List.cons_append] at h
      obtain ⟨rfl, htail⟩ := List.cons.inj h
      -- the octet of ASCII is none of those that the first character has behind `y`
      have hsplit : ∃ a', a = bs ++ a' ∧ encode s = a' ++ b :: rest := by
        rcases List.append_eq_append_iff.1 htail with hmore | ⟨inner, hinner, hrest⟩
        · exact hmore
        · cases inner with
          | nil => exact ⟨[], by rw [hinner, List.append_nil, List.append_nil], hrest.symm⟩
          | cons d inner =>
            obtain ⟨rfl, -⟩ := List.cons.inj hrest
            have hmem : b ∈ (encodeChar c).tail := by
              rw [hc, hinner, List.tail_cons]
              exact List.mem_append_right a List.mem_cons_self
            have hhigh := le_toNat_of_mem_tail hmem
            omega
      obtain ⟨a', rfl, hs⟩ := hsplit
      obtain ⟨t, u, rfl, rfl, hu⟩ := ih hs
      refine ⟨c :: t, u, rfl, ?_, hu⟩
      rw [encode_cons, hc]
      rfl

/-- Where the octets of a text that begins with ASCII stand among those of another text, the one
text stands in the other. -/
lemma exists_of_isPrefix_drop_encode {c : Char} {p s : List Char} {i : ℕ} (hc : c.toNat < 0x80)
    (h : encode (c :: p) <+: (encode s).drop i) :
    ∃ t u, s = t ++ u ∧ c :: p <+: u ∧ i = (encode t).length := by
  have hfirst : encodeChar c = [UInt8.ofNat c.toNat] := by rw [encodeChar, if_pos hc]
  have hascii : (UInt8.ofNat c.toNat).toNat < 0x80 := by
    rw [toNat_ofNat_of_lt (by omega)]
    exact hc
  obtain ⟨rest, hrest⟩ := h
  have hi : i < (encode s).length := by
    by_contra hle
    rw [List.drop_eq_nil_of_le (by omega), encode_cons, hfirst] at hrest
    cases hrest
  rw [encode_cons, hfirst, List.singleton_append, List.cons_append] at hrest
  have hcut : encode s = (encode s).take i ++ UInt8.ofNat c.toNat :: (encode p ++ rest) := by
    rw [hrest, List.take_append_drop]
  obtain ⟨t, u, rfl, ht, hu⟩ := exists_of_encode_eq_append hascii hcut
  refine ⟨t, u, rfl, isPrefix_encode_iff.1 ⟨rest, ?_⟩, ?_⟩
  · rw [← hu, encode_cons, hfirst]
    rfl
  · rw [← ht, List.length_take, Nat.min_eq_left (Nat.le_of_lt hi)]

end Netconf.Utf8
