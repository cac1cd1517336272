import Mathlib.Data.List.Basic
import PackageInstaller.Encoding.Utf8

/-! Reading a text back from its bytes, and writing back the bytes it was read from. Each character is read
from the bytes that it was written as, whatever bytes follow, and from no others. -/

namespace PackageInstaller.Encoding

variable {low high a b : UInt8} {value rest n x : Nat} {t u : Bytes}

lemma toNat_toUInt8 (h : n < 256) : n.toUInt8.toNat = n := by
  simp [Nat.mod_eq_of_lt h]

lemma continuation_cons (hlow : low.toNat ≤ b.toNat) (hhigh : b.toNat ≤ high.toNat)
    (h : continuation 0x80 0xBF (64 * value + (b.toNat - 0x80)) rest t = .ok x) :
    continuation low high value (rest + 1) (b :: t) = .ok x := by
  have hb : ¬(b < low ∨ high < b) := by
    rw [UInt8.lt_iff_toNat_lt, UInt8.lt_iff_toNat_lt]
    omega
  rw [continuation, if_neg hb, h]
  rfl

lemma continuation_tail (hn : n < 64) (hlow : low.toNat ≤ 0x80 + n) (hhigh : 0x80 + n ≤ high.toNat)
    (h : continuation 0x80 0xBF (64 * value + n) rest t = .ok x) :
    continuation low high value (rest + 1) ((0x80 + n).toUInt8 :: t) = .ok x := by
  have hb : (0x80 + n).toUInt8.toNat = 0x80 + n := toNat_toUInt8 (by omega)
  refine continuation_cons (by rw [hb]; exact hlow) (by rw [hb]; exact hhigh) ?_
  rw [hb, Nat.add_sub_cancel_left]
  exact h

lemma tail_bounds (hn : n < 64) : UInt8.toNat 0x80 ≤ 0x80 + n ∧ 0x80 + n ≤ UInt8.toNat 0xBF := by
  change 0x80 ≤ _ ∧ _ ≤ 0xBF
  omega

lemma continuation_last (hn : n < 64) :
    continuation 0x80 0xBF value 1 ((0x80 + n).toUInt8 :: t) = .ok (64 * value + n) :=
  continuation_tail hn (tail_bounds hn).1 (tail_bounds hn).2 rfl

lemma headPoint_of_lead {halves : Bool} (ha : 0x80 ≤ a.toNat) (hlead : lead? a = some ⟨rest, low, high, value⟩)
    (h : continuation low high value rest t = .ok x) : headPoint halves a t = .ok (x, rest) := by
  have hn : ¬a < 0x80 := by
    rw [UInt8.lt_iff_toNat_lt]
    exact Nat.not_lt.mpr ha
  rw [headPoint, if_neg hn, hlead]
  simp only [h]

lemma lead?_two (h : 0x80 ≤ n) (h' : n < 0x800) :
    lead? (0xC0 + n / 0x40).toUInt8 = some ⟨1, 0x80, 0xBF, n / 0x40⟩ := by
  have hb : (0xC0 + n / 0x40).toUInt8.toNat = 0xC0 + n / 0x40 := toNat_toUInt8 (by omega)
  generalize (0xC0 + n / 0x40).toUInt8 = a at hb
  have h₂ : 0xC2 ≤ a ∧ a ≤ 0xDF := by
    rw [UInt8.le_iff_toNat_le, UInt8.le_iff_toNat_le, hb]
    change 0xC2 ≤ _ ∧ _ ≤ 0xDF
    omega
  rw [lead?, if_pos h₂, hb, Nat.add_sub_cancel_left]

/-- The byte after the first of three is within bounds: the character has no shorter form, and is no
half of a pair. -/
lemma lead?_three (h : 0x800 ≤ n) (h' : n < 0x10000) (hvalid : n < 0xD800 ∨ 0xDFFF < n) :
    ∃ low high, lead? (0xE0 + n / 0x1000).toUInt8 = some ⟨2, low, high, n / 0x1000⟩ ∧
      low.toNat ≤ 0x80 + n / 0x40 % 64 ∧ 0x80 + n / 0x40 % 64 ≤ high.toNat := by
  have hb : (0xE0 + n / 0x1000).toUInt8.toNat = 0xE0 + n / 0x1000 := toNat_toUInt8 (by omega)
  generalize (0xE0 + n / 0x1000).toUInt8 = a at hb
  have h₂ : ¬(0xC2 ≤ a ∧ a ≤ 0xDF) := by
    rw [UInt8.le_iff_toNat_le, UInt8.le_iff_toNat_le, hb]
    change ¬(_ ∧ _ ≤ 0xDF)
    omega
  have h₃ : 0xE0 ≤ a ∧ a ≤ 0xEF := by
    rw [UInt8.le_iff_toNat_le, UInt8.le_iff_toNat_le, hb]
    change 0xE0 ≤ _ ∧ _ ≤ 0xEF
    omega
  rw [lead?, if_neg h₂, if_pos h₃, hb, Nat.add_sub_cancel_left]
  refine ⟨_, _, rfl, ?_, ?_⟩
  · split_ifs with ha
    · change 0xA0 ≤ _
      rw [ha] at hb
      change 0xE0 = _ at hb
      omega
    · change 0x80 ≤ _
      omega
  · split_ifs with ha
    · change _ ≤ 0x9F
      rw [ha] at hb
      change 0xED = _ at hb
      omega
    · change _ ≤ 0xBF
      omega

lemma lead?_four (h : 0x10000 ≤ n) (h' : n < 0x110000) :
    ∃ low high, lead? (0xF0 + n / 0x40000).toUInt8 = some ⟨3, low, high, n / 0x40000⟩ ∧
      low.toNat ≤ 0x80 + n / 0x1000 % 64 ∧ 0x80 + n / 0x1000 % 64 ≤ high.toNat := by
  have hb : (0xF0 + n / 0x40000).toUInt8.toNat = 0xF0 + n / 0x40000 := toNat_toUInt8 (by omega)
  generalize (0xF0 + n / 0x40000).toUInt8 = a at hb
  have h₂ : ¬(0xC2 ≤ a ∧ a ≤ 0xDF) := by
    rw [UInt8.le_iff_toNat_le, UInt8.le_iff_toNat_le, hb]
    change ¬(_ ∧ _ ≤ 0xDF)
    omega
  have h₃ : ¬(0xE0 ≤ a ∧ a ≤ 0xEF) := by
    rw [UInt8.le_iff_toNat_le, UInt8.le_iff_toNat_le, hb]
    change ¬(_ ∧ _ ≤ 0xEF)
    omega
  have h₄ : 0xF0 ≤ a ∧ a ≤ 0xF4 := by
    rw [UInt8.le_iff_toNat_le, UInt8.le_iff_toNat_le, hb]
    change 0xF0 ≤ _ ∧ _ ≤ 0xF4
    omega
  rw [lead?, if_neg h₂, if_neg h₃, if_pos h₄, hb, Nat.add_sub_cancel_left]
  refine ⟨_, _, rfl, ?_, ?_⟩
  · split_ifs with ha
    · change 0x90 ≤ _
      rw [ha] at hb
      change 0xF0 = _ at hb
      omega
    · change 0x80 ≤ _
      omega
  · split_ifs with ha
    · change _ ≤ 0x8F
      rw [ha] at hb
      change 0xF4 = _ at hb
      omega
    · change _ ≤ 0xBF
      omega

lemma headPoint_encodeChar (halves : Bool) (c : Char) (t : Bytes) :
    ∃ a u, encodeChar c = a :: u ∧ headPoint halves a (u ++ t) = .ok (c.toNat, u.length) := by
  have hvalid : c.toNat < 0xD800 ∨ 0xDFFF < c.toNat ∧ c.toNat < 0x110000 := c.valid
  rw [encodeChar]
  generalize c.toNat = n at hvalid
  have hlast : n % 64 < 64 := Nat.mod_lt _ (by decide)
  have hthird : n / 0x40 % 64 < 64 := Nat.mod_lt _ (by decide)
  split_ifs with h₁ h₂ h₃
  · refine ⟨_, [], rfl, ?_⟩
    have hb : n.toUInt8.toNat = n := toNat_toUInt8 (by omega)
    have ha : n.toUInt8 < 0x80 := by
      rw [UInt8.lt_iff_toNat_lt, hb]
      exact h₁
    rw [headPoint, if_pos ha, hb]
    rfl
  · refine ⟨_, [_], rfl, headPoint_of_lead ?_ (lead?_two (by omega) h₂) ?_⟩
    · rw [toNat_toUInt8 (by omega)]
      omega
    · exact (continuation_last hlast).trans (congrArg Except.ok (by omega))
  · obtain ⟨low, high, hlead, hlow, hhigh⟩ := lead?_three (n := n) (by omega) h₃ (by omega)
    refine ⟨_, [_, _], rfl, headPoint_of_lead ?_ hlead (continuation_tail hthird hlow hhigh ?_)⟩
    · rw [toNat_toUInt8 (by omega)]
      omega
    · exact (continuation_last hlast).trans (congrArg Except.ok (by omega))
  · obtain ⟨low, high, hlead, hlow, hhigh⟩ := lead?_four (n := n) (by omega) (by omega)
    have hsecond : n / 0x1000 % 64 < 64 := Nat.mod_lt _ (by decide)
    refine ⟨_, [_, _, _], rfl, headPoint_of_lead ?_ hlead (continuation_tail hsecond hlow hhigh
      (continuation_tail hthird (tail_bounds hthird).1 (tail_bounds hthird).2 ?_))⟩
    · rw [toNat_toUInt8 (by omega)]
      omega
    · exact (continuation_last hlast).trans (congrArg Except.ok (by omega))

lemma utf8From_skip (halves : Bool) (pos : Nat) (u t : Bytes) :
    utf8From halves u.length pos (u ++ t) = utf8From halves 0 (pos + u.length) t := by
  induction u generalizing pos with
  | nil => rfl
  | cons a u ih =>
    rw [List.length_cons, List.cons_append, utf8From, ih, Nat.add_right_comm, Nat.add_assoc]

lemma charOf_toNat (half : Nat → Char) (c : Char) : charOf half c.toNat = c := by
  have hvalid : c.toNat.isValidChar := c.valid
  rw [charOf, if_pos hvalid, Char.ofNat_toNat]

lemma encodeUtf8_cons (c : Char) (t : Text) : encodeUtf8 (c :: t) = encodeChar c ++ encodeUtf8 t := rfl

lemma utf8From_encodeUtf8 (halves : Bool) (pos : Nat) (t : Text) :
    utf8From halves 0 pos (encodeUtf8 t) = .ok t := by
  induction t generalizing pos with
  | nil => rfl
  | cons c t ih =>
    obtain ⟨a, u, hbytes, hread⟩ := headPoint_encodeChar halves c (encodeUtf8 t)
    rw [encodeUtf8_cons, hbytes, List.cons_append, utf8From, hread]
    simp only
    rw [utf8From_skip, ih, charOf_toNat]
    rfl

/-- What is written is what is read. -/
theorem decodeUtf8_encodeUtf8 (t : Text) : decodeUtf8 (encodeUtf8 t) = .ok t := utf8From_encodeUtf8 false 0 t

variable {c d : UInt8} {lead : Lead}

lemma continuation_eq_ok (h : continuation low high value (rest + 1) t = .ok x) :
    ∃ b u, t = b :: u ∧ low.toNat ≤ b.toNat ∧ b.toNat ≤ high.toNat ∧
      continuation 0x80 0xBF (64 * value + (b.toNat - 0x80)) rest u = .ok x := by
  cases t with
  | nil => simp [continuation] at h
  | cons b u =>
    rw [continuation] at h
    split_ifs at h with hb
    rw [not_or, UInt8.lt_iff_toNat_lt, UInt8.lt_iff_toNat_lt, Nat.not_lt, Nat.not_lt] at hb
    refine ⟨b, u, rfl, hb.1, hb.2, ?_⟩
    cases hc : continuation 0x80 0xBF (64 * value + (b.toNat - 0x80)) rest u with
    | ok y =>
      rw [hc] at h
      exact congrArg Except.ok (Except.ok.inj h)
    | error e => simp [hc, Except.mapError] at h

lemma lead?_cases (h : lead? a = some lead) :
    (0xC2 ≤ a.toNat ∧ a.toNat ≤ 0xDF ∧ lead = ⟨1, 0x80, 0xBF, a.toNat - 0xC0⟩) ∨
    (∃ low high, 0xE0 ≤ a.toNat ∧ a.toNat ≤ 0xEF ∧ lead = ⟨2, low, high, a.toNat - 0xE0⟩ ∧
      0x80 ≤ low.toNat ∧ high.toNat ≤ 0xBF ∧ (a.toNat = 0xE0 → 0xA0 ≤ low.toNat) ∧
        (a.toNat = 0xED → high.toNat ≤ 0x9F)) ∨
    ∃ low high, 0xF0 ≤ a.toNat ∧ a.toNat ≤ 0xF4 ∧ lead = ⟨3, low, high, a.toNat - 0xF0⟩ ∧
      0x80 ≤ low.toNat ∧ high.toNat ≤ 0xBF ∧ (a.toNat = 0xF0 → 0x90 ≤ low.toNat) ∧
        (a.toNat = 0xF4 → high.toNat ≤ 0x8F) := by
  rw [lead?] at h
  split at h
  · rename_i h₂
    rw [UInt8.le_iff_toNat_le, UInt8.le_iff_toNat_le] at h₂
    exact .inl ⟨h₂.1, h₂.2, (Option.some.inj h).symm⟩
  · split at h
    · rename_i h₃
      rw [UInt8.le_iff_toNat_le, UInt8.le_iff_toNat_le] at h₃
      refine .inr (.inl ⟨_, _, h₃.1, h₃.2, (Option.some.inj h).symm, ?_, ?_, fun ha => ?_, fun ha => ?_⟩)
      · split_ifs <;> decide
      · split_ifs <;> decide
      · rw [if_pos (UInt8.toNat_inj.mp ha)]
        decide
      · rw [if_pos (UInt8.toNat_inj.mp ha)]
        decide
    · split at h
      · rename_i h₄
        rw [UInt8.le_iff_toNat_le, UInt8.le_iff_toNat_le] at h₄
        refine .inr (.inr ⟨_, _, h₄.1, h₄.2, (Option.some.inj h).symm, ?_, ?_, fun ha => ?_, fun ha => ?_⟩)
        · split_ifs <;> decide
        · split_ifs <;> decide
        · rw [if_pos (UInt8.toNat_inj.mp ha)]
          decide
        · rw [if_pos (UInt8.toNat_inj.mp ha)]
          decide
      · simp at h

lemma toUInt8_eq (h : a.toNat = n) : n.toUInt8 = a := by
  rw [← h]
  exact UInt8.toNat_inj.mp (toNat_toUInt8 a.toNat_lt)

lemma toNat_charOf {half : Nat → Char} (h : x.isValidChar) : (charOf half x).toNat = x := by
  rw [charOf, if_pos h, Char.ofNat, dif_pos h]
  rfl

lemma encodeChar_one (ha : a.toNat < 0x80) : encodeChar (charOf ofHalf a.toNat) = [a] := by
  rw [encodeChar, toNat_charOf (.inl (by omega))]
  rw [if_pos ha, toUInt8_eq rfl]

lemma encodeChar_two (ha : 0xC2 ≤ a.toNat ∧ a.toNat ≤ 0xDF) (hb : 0x80 ≤ b.toNat ∧ b.toNat ≤ 0xBF)
    (hx : 64 * (a.toNat - 0xC0) + (b.toNat - 0x80) = x) : encodeChar (charOf ofHalf x) = [a, b] := by
  rw [encodeChar, toNat_charOf (.inl (by omega))]
  rw [if_neg (by omega), if_pos (by omega), @toUInt8_eq a _ (by omega), @toUInt8_eq b _ (by omega)]

/-- The bounds of the second byte leave out the shorter forms and the halves of pairs. -/
lemma encodeChar_three (ha : 0xE0 ≤ a.toNat ∧ a.toNat ≤ 0xEF) (hb : 0x80 ≤ b.toNat ∧ b.toNat ≤ 0xBF)
    (hshort : a.toNat = 0xE0 → 0xA0 ≤ b.toNat) (hhalf : a.toNat = 0xED → b.toNat ≤ 0x9F)
    (hc : 0x80 ≤ c.toNat ∧ c.toNat ≤ 0xBF)
    (hx : 64 * (64 * (a.toNat - 0xE0) + (b.toNat - 0x80)) + (c.toNat - 0x80) = x) :
    encodeChar (charOf ofHalf x) = [a, b, c] := by
  have hvalid : x < 0xD800 ∨ 0xDFFF < x ∧ x < 0x110000 := by omega
  rw [encodeChar, toNat_charOf hvalid]
  rw [if_neg (by omega), if_neg (by omega), if_pos (by omega), @toUInt8_eq a _ (by omega),
    @toUInt8_eq b _ (by omega), @toUInt8_eq c _ (by omega)]

lemma encodeChar_four (ha : 0xF0 ≤ a.toNat ∧ a.toNat ≤ 0xF4) (hb : 0x80 ≤ b.toNat ∧ b.toNat ≤ 0xBF)
    (hshort : a.toNat = 0xF0 → 0x90 ≤ b.toNat) (hlast : a.toNat = 0xF4 → b.toNat ≤ 0x8F)
    (hc : 0x80 ≤ c.toNat ∧ c.toNat ≤ 0xBF) (hd : 0x80 ≤ d.toNat ∧ d.toNat ≤ 0xBF)
    (hx : 64 * (64 * (64 * (a.toNat - 0xF0) + (b.toNat - 0x80)) + (c.toNat - 0x80)) + (d.toNat - 0x80) = x) :
    encodeChar (charOf ofHalf x) = [a, b, c, d] := by
  have hvalid : x < 0xD800 ∨ 0xDFFF < x ∧ x < 0x110000 := by omega
  rw [encodeChar, toNat_charOf hvalid]
  rw [if_neg (by omega), if_neg (by omega), if_neg (by omega), @toUInt8_eq a _ (by omega),
    @toUInt8_eq b _ (by omega), @toUInt8_eq c _ (by omega), @toUInt8_eq d _ (by omega)]

lemma continuation_last_ok (h : continuation 0x80 0xBF value 1 t = .ok x) :
    ∃ b u, t = b :: u ∧ (0x80 ≤ b.toNat ∧ b.toNat ≤ 0xBF) ∧ 64 * value + (b.toNat - 0x80) = x := by
  obtain ⟨b, u, rfl, hlow, hhigh, hx⟩ := continuation_eq_ok h
  exact ⟨b, u, rfl, ⟨hlow, hhigh⟩, Except.ok.inj hx⟩

/-- A character is written as the bytes that it was read from. -/
lemma encodeChar_headPoint (h : headPoint false a t = .ok (x, n)) :
    ∃ u v, t = u ++ v ∧ u.length = n ∧ encodeChar (charOf ofHalf x) = a :: u := by
  rw [headPoint] at h
  split at h
  · rename_i ha
    rw [UInt8.lt_iff_toNat_lt] at ha
    obtain ⟨rfl, rfl⟩ := Prod.mk.inj (Except.ok.inj h)
    exact ⟨[], t, rfl, rfl, encodeChar_one ha⟩
  · split at h
    · simp at h
    · rename_i lead hlead
      split at h
      · rename_i value hvalue
        obtain ⟨rfl, rfl⟩ := Prod.mk.inj (Except.ok.inj h)
        rcases lead?_cases hlead with ⟨hlow, hhigh, rfl⟩ | ⟨low, high, ha, ha', rfl, hl, hh, hl', hh'⟩ |
          ⟨low, high, ha, ha', rfl, hl, hh, hl', hh'⟩
        · obtain ⟨b, u, rfl, hb, hx⟩ := continuation_last_ok hvalue
          exact ⟨[b], u, rfl, rfl, encodeChar_two ⟨hlow, hhigh⟩ hb hx⟩
        · obtain ⟨b, u, rfl, hb, hb', hx⟩ := continuation_eq_ok hvalue
          obtain ⟨c, u, rfl, hc, hx⟩ := continuation_last_ok hx
          exact ⟨[b, c], u, rfl, rfl, encodeChar_three ⟨ha, ha'⟩ ⟨Nat.le_trans hl hb, Nat.le_trans hb' hh⟩
            (fun he => Nat.le_trans (hl' he) hb) (fun he => Nat.le_trans hb' (hh' he)) hc hx⟩
        · obtain ⟨b, u, rfl, hb, hb', hx⟩ := continuation_eq_ok hvalue
          obtain ⟨c, u, rfl, hc, hc', hx⟩ := continuation_eq_ok hx
          obtain ⟨d, u, rfl, hd, hx⟩ := continuation_last_ok hx
          exact ⟨[b, c, d], u, rfl, rfl, encodeChar_four ⟨ha, ha'⟩ ⟨Nat.le_trans hl hb, Nat.le_trans hb' hh⟩
            (fun he => Nat.le_trans (hl' he) hb) (fun he => Nat.le_trans hb' (hh' he)) ⟨hc, hc'⟩ hd hx⟩
      · simp at h

lemma encodeUtf8_utf8From {pos : Nat} {s : Text} (h : utf8From false 0 pos t = .ok s) : encodeUtf8 s = t := by
  induction s generalizing t pos with
  | nil =>
    cases t with
    | nil => rfl
    | cons a t =>
      rw [utf8From] at h
      split at h
      · rename_i value n _
        cases hrest : utf8From false n (pos + 1) t <;> simp [hrest, Except.map] at h
      · simp at h
  | cons c s ih =>
    cases t with
    | nil => simp [utf8From] at h
    | cons a t =>
      rw [utf8From] at h
      split at h
      · rename_i value n hpoint
        obtain ⟨u, v, rfl, rfl, hchar⟩ := encodeChar_headPoint hpoint
        cases hrest : utf8From false u.length (pos + 1) (u ++ v) with
        | error e => simp [hrest, Except.map] at h
        | ok later =>
          rw [hrest] at h
          obtain ⟨rfl, rfl⟩ := List.cons.inj (Except.ok.inj h)
          rw [utf8From_skip] at hrest
          rw [encodeUtf8_cons, hchar, ih hrest]
          rfl
      · simp at h

/-- What was read is written as it was. -/
theorem encodeUtf8_decodeUtf8 {s : Text} (h : decodeUtf8 t = .ok s) : encodeUtf8 s = t := encodeUtf8_utf8From h

lemma encodeChar_long {k : Char} (h : 0x80 ≤ k.toNat) : ∀ b ∈ encodeChar k, 0x80 ≤ b.toNat := by
  have hvalid : k.toNat < 0xD800 ∨ 0xDFFF < k.toNat ∧ k.toNat < 0x110000 := k.valid
  have hbyte : ∀ n, 0x80 ≤ n → n < 0x100 → 0x80 ≤ n.toUInt8.toNat := fun n hn hlt => by rwa [toNat_toUInt8 hlt]
  rw [encodeChar]
  generalize k.toNat = n at h hvalid
  split_ifs with h₁ h₂ h₃
  · omega
  · simp only [List.forall_mem_cons, List.not_mem_nil, false_implies, implies_true, and_true]
    exact ⟨hbyte _ (by omega) (by omega), hbyte _ (by omega) (by omega)⟩
  · simp only [List.forall_mem_cons, List.not_mem_nil, false_implies, implies_true, and_true]
    exact ⟨hbyte _ (by omega) (by omega), hbyte _ (by omega) (by omega), hbyte _ (by omega) (by omega)⟩
  · simp only [List.forall_mem_cons, List.not_mem_nil, false_implies, implies_true, and_true]
    exact ⟨hbyte _ (by omega) (by omega), hbyte _ (by omega) (by omega), hbyte _ (by omega) (by omega),
      hbyte _ (by omega) (by omega)⟩

/-- A byte of the short range is a character by itself. -/
lemma mem_encodeChar {k : Char} (ha : a.toNat < 0x80) : a ∈ encodeChar k ↔ k.toNat = a.toNat := by
  by_cases hk : k.toNat < 0x80
  · rw [encodeChar, if_pos hk, List.mem_singleton, ← UInt8.toNat_inj, toNat_toUInt8 (by omega), eq_comm]
  · refine iff_of_false (fun hmem => ?_) (by omega)
    have := encodeChar_long (by omega) a hmem
    omega

end PackageInstaller.Encoding
