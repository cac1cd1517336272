import PackageInstaller.Proofs.Partition
import PackageInstaller.Proofs.Spelling

/-! What stands between the quotes of a string, to the scanner and to the reader of values. The scanner passes an
interpolation as code, the reader drops every backslash; where the one ends a string the other one ends it too. -/

namespace PackageInstaller.Manifest

namespace StringLiteral

/-- The characters that no backslash belongs to. -/
def bare : Text → Text
  | '\\' :: _ :: b => bare b
  | c :: b => c :: bare b
  | [] => []

/-- The text without the backslashes that stand before a character of their own. -/
def unescaped : Text → Text
  | '\\' :: c :: b => c :: unescaped b
  | c :: b => c :: unescaped b
  | [] => []

/-- What is read of a string, by what stands between its quotes. -/
def readBody (b : Text) : Option Text := if '\n' ∈ b ∨ '"' ∈ bare b then none else some (unescaped b)

variable {b s t v : Text} {c : Char}

lemma readBody_eq_some : readBody b = some v ↔ '\n' ∉ b ∧ '"' ∉ bare b ∧ v = unescaped b := by
  rw [readBody]
  split_ifs with h
  · simp only [false_iff]
    exact fun hn => h.elim hn.1 hn.2.1
  · rw [not_or] at h
    simp [h.1, h.2, eq_comm]

lemma bare_cons (h : c ≠ '\\') : bare (c :: b) = c :: bare b := by
  rw [bare]
  rintro d b' rfl
  exact absurd rfl h

lemma unescaped_cons (h : c ≠ '\\') : unescaped (c :: b) = c :: unescaped b := by
  rw [unescaped]
  rintro d b' rfl
  exact absurd rfl h

namespace Paired

lemma escaped_append (hs : Paired s) (t : Text) : escaped (s ++ t) = escaped s ++ escaped t := by
  induction hs with
  | nil => rfl
  | plain hc _ ih => rw [List.cons_append, escaped_cons hc, escaped_cons hc, ih]
  | @pair c b _ ih =>
    change c :: escaped (b ++ t) = c :: escaped b ++ escaped t
    rw [ih, List.cons_append]

lemma mem_iff (hs : Paired s) (hc : c ≠ '\\') : c ∈ s ↔ c ∈ bare s ∨ c ∈ escaped s := by
  induction hs with
  | nil => simp [bare, escaped]
  | plain hd _ ih =>
    rw [bare_cons hd, escaped_cons hd, List.mem_cons, List.mem_cons, ih, or_assoc]
  | @pair d b _ ih =>
    change c ∈ '\\' :: d :: b ↔ c ∈ bare b ∨ c ∈ d :: escaped b
    simp only [List.mem_cons, hc, false_or, ih]
    exact or_left_comm

lemma infix_of_mem_escaped (hs : Paired s) (hc : c ∈ escaped s) : ['\\', c] <:+: s := by
  induction hs with
  | nil => simp [escaped] at hc
  | @plain d b hd _ ih =>
    rw [escaped_cons hd] at hc
    exact (ih hc).trans (List.suffix_cons d b).isInfix
  | @pair d b _ ih =>
    rcases List.mem_cons.mp (show c ∈ d :: escaped b from hc) with rfl | hc
    · exact (List.prefix_append ['\\', c] b).isInfix
    · exact (ih hc).trans (List.suffix_append ['\\', d] b).isInfix

lemma decodeBody? (hs : Paired s) : StringLiteral.decodeBody? (s ++ ['"']) = readBody s := by
  induction hs with
  | nil => rfl
  | @plain c b hc _ ih =>
    rw [readBody, bare_cons hc, unescaped_cons hc, List.cons_append]
    by_cases hend : c = '"' ∨ c = '\n'
    · rw [if_pos (by rcases hend with rfl | rfl <;> simp)]
      by_contra hsome
      obtain ⟨v, hv⟩ := Option.ne_none_iff_exists'.mp hsome
      obtain ⟨hquote, hline, -⟩ := decodeBody?_plain hc (by simp) hv
      exact hend.elim hquote hline
    · rw [not_or] at hend
      rw [decodeBody?_cons hc hend.1 hend.2, ih, readBody]
      simp only [List.mem_cons, Ne.symm hend.1, Ne.symm hend.2, false_or]
      split_ifs <;> rfl
  | @pair c b _ ih =>
    change StringLiteral.decodeBody? ('\\' :: c :: (b ++ ['"'])) =
      if '\n' ∈ '\\' :: c :: b ∨ '"' ∈ bare b then none else some (c :: unescaped b)
    rw [StringLiteral.decodeBody?, ih, readBody]
    by_cases hc : c = '\n'
    · simp [hc]
    · simp only [List.mem_cons, Ne.symm hc, if_neg hc, false_or, show '\n' ≠ '\\' by decide]
      split_ifs <;> rfl

end Paired

lemma Body.bare (h : Body b) (hp : '(' ∉ escaped b) : '"' ∉ StringLiteral.bare b ∧ '\n' ∉ StringLiteral.bare b := by
  induction h with
  | nil => simp [StringLiteral.bare]
  | char hq hc hn _ ih =>
    rw [escaped_cons hc] at hp
    rw [bare_cons hc, List.mem_cons, List.mem_cons, not_or, not_or]
    exact ⟨⟨Ne.symm hq, (ih hp).1⟩, Ne.symm hn, (ih hp).2⟩
  | escape _ _ ih => exact ih fun hin => hp (List.mem_cons_of_mem _ hin)
  | interpolation => exact absurd List.mem_cons_self hp

end StringLiteral

open StringLiteral

variable {t : Text} {i e opener : Nat} {args : ArgumentList} {item : Argument}

/-- At the offset a string opens with one quote and no `#`. -/
def QuotedAt (t : Text) (i : Nat) : Prop := t[i]? = some '"' ∧ ¬['"', '"', '"'] <+: t.drop i

instance (t : Text) (i : Nat) : Decidable (QuotedAt t i) := inferInstanceAs (Decidable (_ ∧ _))

lemma quotedAt_iff (hi : t[i]? = some '"') : QuotedAt t i ↔ opening? (t.drop i) = some (.string 0 false) := by
  have hopening := opening?_cons_quote (t.drop (i + 1))
  rw [← drop_eq_cons.mp hi] at hopening
  simp only [QuotedAt, hi, hopening, true_and, ← List.isPrefixOf_iff_prefix, Bool.not_eq_true, Option.some.injEq,
    Opening.string.injEq]

lemma exists_body (h : skipLiteral? t i = .ok (some e)) (hq : QuotedAt t i) :
    ∃ b, t.slice i e = '"' :: (b ++ ['"']) ∧ Body b := by
  obtain ⟨n, hn, rfl⟩ := skipLiteral?_eq_some.mp h
  have hdrop := drop_eq_cons.mp hq.1
  have hrun := (literalLength?_string ((quotedAt_iff hq.1).mp hq)).mp hn
  rw [hdrop] at hrun
  obtain ⟨b, z, hbody, rfl, hb⟩ := exists_body_of_run (show run 0 1 [.string 0 0 false] (t.drop (i + 1)) = .ok n from hrun)
  have htext : t.drop i = ('"' :: (b ++ ['"'])) ++ z := by
    rw [hdrop, hbody]
    simp
  have hlen : i + (1 + b.length + 1) - i = ('"' :: (b ++ ['"'])).length := by
    simp only [List.length_cons, List.length_append, List.length_nil]
    omega
  exact ⟨b, by rw [Text.slice, htext, hlen, List.take_left], hb⟩

lemma valueAt?_body (h : skipLiteral? t i = .ok (some e)) (hq : QuotedAt t i) :
    ∃ b, t.slice i e = '"' :: (b ++ ['"']) ∧ Body b ∧ valueAt? t ⟨i, e⟩ = readBody b := by
  obtain ⟨b, hslice, hb⟩ := exists_body h hq
  refine ⟨b, hslice, hb, ?_⟩
  rw [valueAt?, hslice]
  exact hb.paired.decodeBody?

lemma escaped_quoted {b : Text} (hb : Paired b) : escaped ('"' :: (b ++ ['"'])) = escaped b := by
  rw [escaped_cons (by decide), hb.escaped_append]
  exact List.append_nil _

lemma exists_between_value (h : splitArguments t opener = .ok args) (hi : item ∈ args.items) :
    ∃ ps, Between t item.value.start item.value.stop ps := by
  obtain ⟨closer, hclose, -⟩ := bind_eq_ok.mp h
  obtain ⟨o, k, b, ho, hk, hb, hbal, hc⟩ := matched_iff.mp (findClosing_eq_ok.mp hclose)
  rw [splitArguments_of_body hk hb hbal hc ho] at h
  obtain ⟨items, hitems, rfl⟩ := map_eq_ok.mp h
  rw [← joined_segments b] at hb
  obtain ⟨m, n, c, separator, hmn, -, -, rfl⟩ := exists_core (fun s hs => segment_of_mem hbal hs) hb hitems item hi
  exact ⟨_, hmn.value separator⟩

lemma stringOf_eq_some {v : Text} {ps : List Piece} (h : stringOf ps = some v) :
    ∃ l, ps = [.literal ('"' :: l)] ∧ decodeBody? l = some v := by
  unfold stringOf at h
  split at h
  · unfold decode? at h
    split at h
    · exact ⟨_, rfl, h⟩
    · simp at h
  · simp at h

lemma quotedAt_of_value {v : Text} {ps : List Piece} (h : Between t i e ps) (hv : valueAt? t ⟨i, e⟩ = some v) :
    skipLiteral? t i = .ok (some e) ∧ QuotedAt t i := by
  rw [h.valueAt?] at hv
  obtain ⟨l, rfl, hl⟩ := stringOf_eq_some hv
  have hlex := h.lexed.1
  have htext : t.drop i = '"' :: l ++ t.drop e := by simpa [Piece.text] using h.text
  have hget : t[i]? = some '"' := by
    rw [← List.head?_drop, htext]
    rfl
  have hopen := opening?_of_body (t := []) (z := t.drop e) (by simpa using hlex) (by simpa using hl)
  refine ⟨h.skip_literal, (quotedAt_iff hget).mpr ?_⟩
  rw [htext]
  simpa using hopen

/-- A value that is read as a string is one literal of one line, with one quote at either end. Such a literal is read
unless it has an interpolation or an escaped line feed. -/
theorem valueAt?_argument (h : splitArguments t opener = .ok args) (hi : item ∈ args.items) :
    ((∃ v, valueAt? t item.value = some v) →
      skipLiteral? t item.value.start = .ok (some item.value.stop) ∧ QuotedAt t item.value.start ∧
        '\n' ∉ t.slice item.value.start item.value.stop) ∧
    (skipLiteral? t item.value.start = .ok (some item.value.stop) → QuotedAt t item.value.start →
      '(' ∉ escaped (t.slice item.value.start item.value.stop) →
      ¬['\\', '\n'] <:+: t.slice item.value.start item.value.stop → ∃ v, valueAt? t item.value = some v) := by
  constructor
  · rintro ⟨v, hv⟩
    obtain ⟨ps, hps⟩ := exists_between_value h hi
    obtain ⟨hskip, hquoted⟩ := quotedAt_of_value hps hv
    obtain ⟨b, hslice, -, hread⟩ := valueAt?_body hskip hquoted
    have hline : '\n' ∉ b := (readBody_eq_some.mp (hread.symm.trans hv)).1
    refine ⟨hskip, hquoted, ?_⟩
    rw [hslice]
    simpa using hline
  · intro hskip hquoted hparen hescaped
    obtain ⟨b, hslice, hb, hread⟩ := valueAt?_body hskip hquoted
    rw [hslice] at hparen hescaped
    rw [escaped_quoted hb.paired] at hparen
    obtain ⟨hquote, hbare⟩ := hb.bare hparen
    have hline : '\n' ∉ b := by
      intro hin
      rcases (hb.paired.mem_iff (by decide)).mp hin with hin | hin
      · exact hbare hin
      · exact hescaped ((hb.paired.infix_of_mem_escaped hin).trans ⟨['"'], ['"'], by simp⟩)
    exact ⟨unescaped b, hread.trans (readBody_eq_some.mpr ⟨hline, hquote, rfl⟩)⟩

def addedStrings : Text := "[\"a\\\"b\", \"a\" + \"b\"]".toList

theorem valueAt?_argument_added : ∃ args first second, splitArguments addedStrings 0 = .ok args ∧
    args.items = [first, second] ∧ (∃ v, valueAt? addedStrings first.value = some v) ∧
    skipLiteral? addedStrings first.value.start = .ok (some first.value.stop) ∧
    '\n' ∉ addedStrings.slice first.value.start first.value.stop ∧ valueAt? addedStrings second.value = none := by
  have hargs : splitArguments addedStrings 0 =
      .ok ⟨0, 18, [⟨none, ⟨1, 7⟩, ⟨1, 7⟩, some 7⟩, ⟨none, ⟨9, 18⟩, ⟨9, 18⟩, none⟩]⟩ := rfl
  obtain ⟨hread, hvalue⟩ := valueAt?_argument hargs List.mem_cons_self
  obtain ⟨hadded, -⟩ := valueAt?_argument hargs (List.mem_cons_of_mem _ List.mem_cons_self)
  have hfirst := hvalue rfl (by decide +kernel) (by decide +kernel) (by decide +kernel)
  obtain ⟨hskip, -, hline⟩ := hread hfirst
  refine ⟨_, _, _, hargs, rfl, hfirst, hskip, hline, ?_⟩
  -- the first of the two strings ends before the value does
  by_contra hsome
  obtain ⟨hend, -⟩ := hadded (Option.ne_none_iff_exists'.mp hsome)
  have hshort : skipLiteral? addedStrings 9 = .ok (some 12) := rfl
  rw [hshort] at hend
  simp at hend

end PackageInstaller.Manifest
