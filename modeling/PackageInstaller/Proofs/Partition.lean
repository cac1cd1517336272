import PackageInstaller.Proofs.Descent

/-! Argument lists as a grammar of offsets, and that the reader of lists, which first looks for the closer and then
for what stands before it, cuts a list as the grammar does. -/

namespace PackageInstaller.Manifest

/-- From `i` to `j` there are blanks and whole comments. -/
inductive Trivia (t : Text) : Nat → Nat → Prop
  | refl (i : Nat) : Trivia t i i
  | blank {i j : Nat} {c : Char} : t[i]? = some c → Text.isBlank c = true → Trivia t (i + 1) j → Trivia t i j
  | comment {i e j : Nat} : opensComment (t.drop i) = true → skipLiteral? t i = .ok (some e) → Trivia t e j →
    Trivia t i j

/-- From `i` to `j` there is a string, a group, or one character that is no blank, no bracket and no comma. -/
inductive ItemPart (t : Text) : Nat → Nat → Prop
  | string {i e : Nat} : opensComment (t.drop i) = false → skipLiteral? t i = .ok (some e) → ItemPart t i e
  | group {i c : Nat} : Matched t i c → ItemPart t i (c + 1)
  | char {i : Nat} {c : Char} : skipLiteral? t i = .ok none → t[i]? = some c → Inner c → c ≠ ',' →
    Text.isBlank c = false → ItemPart t i (i + 1)

/-- From `i` to `j` there are parts of an item, with blanks and comments between them only. -/
inductive Item (t : Text) : Nat → Nat → Prop
  | part {i j : Nat} : ItemPart t i j → Item t i j
  | more {i e s j : Nat} : ItemPart t i e → Trivia t e s → Item t s j → Item t i j

/-- From `i` to `closer` there are the items, and after each its comma, which only the last one may lack. -/
inductive Partition (t : Text) (closer : Nat) : Nat → List Argument → Prop
  | nil {i : Nat} : Trivia t i closer → Partition t closer i []
  | last {i : Nat} {item : Argument} : Trivia t i item.span.start → Item t item.span.start item.span.stop →
    Trivia t item.span.stop closer → item.comma = none → Partition t closer i [item]
  | cons {i p : Nat} {item : Argument} {items : List Argument} : Trivia t i item.span.start →
    Item t item.span.start item.span.stop → Trivia t item.span.stop p → t[p]? = some ',' → item.comma = some p →
    Partition t closer (p + 1) items → Partition t closer i (item :: items)

/-- The item is headed by a label, and what follows the blanks and comments behind the colon is its value. -/
def Labelled (t : Text) (item : Span) (name : Text) (value : Span) : Prop :=
  ∃ blanks rest, Heading (t.slice item.start item.stop) name blanks rest ∧
    Trivia t (item.start + (name.length + blanks.length + 1)) value.start ∧ value.stop = item.stop ∧
      (value.start = value.stop ∨ Item t value.start value.stop)

/-- At `p` there is a comma of the list itself, and only blanks and comments between it and the comma before it, or
the opener. -/
def BareComma (t : Text) (opener p : Nat) : Prop :=
  Level t (opener + 1) p ∧ t[p]? = some ',' ∧ ∃ q, Trivia t q p ∧
    (q = opener + 1 ∨ ∃ m, Level t (opener + 1) m ∧ t[m]? = some ',' ∧ q = m + 1)

/-- The list is what stands between `opener` and its closer. -/
structure ArgumentList.Partitions (t : Text) (opener : Nat) (args : ArgumentList) : Prop where
  start : args.opener = opener
  stop : findClosing t opener = .ok args.closer
  items : Partition t args.closer (opener + 1) args.items
  inhabited : ∀ item ∈ args.items, item.span.start < item.span.stop
  ascending : args.items.Pairwise fun a b => a.span.stop < b.span.start
  unlabelled : ∀ item ∈ args.items, item.label = none → item.value = item.span
  labelled : ∀ item ∈ args.items, ∀ name value,
    item.label = some name ∧ item.value = value ↔ Labelled t item.span name value

variable {t : Text} {i j e closer opener : Nat} {c r s : List Piece}

lemma Between.opensComment {l : Text} (h : Between t i j [.literal l]) :
    opensComment (t.drop i) = (Piece.literal l).isTrivia := by
  have hlex := h.lexed.1
  rw [textOf_nil, List.nil_append] at hlex
  rw [h.text]
  simpa [Piece.text] using opensComment_literal hlex

lemma trivia_iff : Trivia t i j ↔ ∃ ps, Between t i j ps ∧ Trivial ps := by
  constructor
  · intro h
    induction h with
    | refl i => exact ⟨[], .nil t i, by simp [Trivial]⟩
    | blank hc hb _ ih =>
      obtain ⟨ps, hps, hall⟩ := ih
      have hskip := skipLiteral?_plain hc (ordinary_of_isBlank hb).1
      exact ⟨_, (Between.char hskip hc).append hps, List.forall_mem_cons.mpr ⟨hb, hall⟩⟩
    | comment ho hskip _ ih =>
      obtain ⟨l, hl⟩ := Between.literal hskip
      obtain ⟨ps, hps, hall⟩ := ih
      exact ⟨_, hl.append hps, List.forall_mem_cons.mpr ⟨hl.opensComment.symm.trans ho, hall⟩⟩
  · rintro ⟨ps, h, hall⟩
    induction ps generalizing i with
    | nil =>
      obtain rfl : j = i := h.stop
      exact .refl j
    | cons p ps ih =>
      obtain ⟨e, hp, hps⟩ := h.split_cons
      obtain ⟨htriv, hrest⟩ := List.forall_mem_cons.mp hall
      cases p with
      | literal l => exact .comment (hp.opensComment.trans htriv) hp.skip_literal (ih hps hrest)
      | char d =>
        obtain ⟨-, hd, rfl⟩ := hp.skip_char
        exact .blank hd htriv (ih hps hrest)

lemma Segment.dropWhile (h : Segment r) (hn : r ≠ []) (hlast : ∀ p, r.getLast? = some p → p.isTrivia = false) :
    Segment (r.dropWhile Piece.isTrivia) ∧ Solid (r.dropWhile Piece.isTrivia) ∧ r.dropWhile Piece.isTrivia ≠ [] := by
  have hsplit : r.takeWhile Piece.isTrivia ++ r.dropWhile Piece.isTrivia = r := List.takeWhile_append_dropWhile
  have hl : Trivial (r.takeWhile Piece.isTrivia) := fun _ hp => List.mem_takeWhile_imp hp
  have hc : r.dropWhile Piece.isTrivia ≠ [] := by
    intro hnil
    rw [List.dropWhile_eq_nil_iff] at hnil
    have := hlast _ (List.getLast?_eq_some_getLast hn)
    rw [hnil _ (List.getLast_mem hn)] at this
    simp at this
  refine ⟨?_, ⟨fun p hp => ?_, fun p hp => hlast p ?_⟩, hc⟩
  · rw [← hsplit] at h
    exact h.right (trivial_balanced hl)
  · have := List.head?_dropWhile_not Piece.isTrivia r
    rwa [hp] at this
  · rw [← hsplit, List.getLast?_append_of_ne_nil _ hc, hp]

lemma Solid.around {m : List Piece} (hs : Solid s) (hsn : s ≠ []) (hc : Solid c) (hcn : c ≠ []) :
    Solid (s ++ (m ++ c)) := by
  refine ⟨fun p hp => hs.1 p ?_, fun p hp => hc.2 p ?_⟩
  · rwa [List.head?_append_of_ne_nil _ hsn] at hp
  · rwa [← List.append_assoc, List.getLast?_append_of_ne_nil _ hcn] at hp

lemma ItemPart.pieces (h : ItemPart t i j) : ∃ c, Between t i j c ∧ Segment c ∧ Solid c ∧ c ≠ [] := by
  cases h with
  | string ho hskip =>
    obtain ⟨l, hl⟩ := Between.literal hskip
    have hnot : (Piece.literal l).isTrivia = false := hl.opensComment.symm.trans ho
    exact ⟨_, hl, .literal l, ⟨by simpa using hnot, by simpa using hnot⟩, by simp⟩
  | group h =>
    obtain ⟨o, k, b, hi, ho, hb, hbal, hk⟩ := matched_iff.mp h
    exact ⟨_, Between.whole hi ho hb hk, .group ho hbal, solid_group b ho, by simp⟩
  | char hskip hc hin hcomma hblank =>
    exact ⟨_, .char hskip hc, .char hin hcomma, ⟨by simpa using hblank, by simpa using hblank⟩, by simp⟩

lemma item_iff : Item t i j ↔ ∃ c, Between t i j c ∧ Segment c ∧ Solid c ∧ c ≠ [] := by
  constructor
  · intro h
    induction h with
    | part h => exact h.pieces
    | more h ht _ ih =>
      obtain ⟨s, hs, hseg, hsol, hn⟩ := h.pieces
      obtain ⟨l, hl, htriv⟩ := trivia_iff.mp ht
      obtain ⟨c, hc, hcseg, hcsol, hcn⟩ := ih
      exact ⟨_, hs.append (hl.append hc), hseg.append (htriv.segment.append hcseg), hsol.around hn hcsol hcn,
        by simp [hn]⟩
  · rintro ⟨c, h, hseg, hsol, hn⟩
    induction hlen : c.length using Nat.strongRecOn generalizing i c with
    | ind n ih =>
      -- the first part is followed by the end of the item, or by another one after blanks and comments
      have onward : ∀ {e s r}, c = s ++ r → s ≠ [] → Segment r → ItemPart t i e → Between t e j r → Item t i j := by
        rintro e s r rfl hs hr hpart hrest
        by_cases hrn : r = []
        · subst hrn
          obtain rfl : j = e := hrest.stop
          exact .part hpart
        · obtain ⟨hcseg, hcsol, hcn⟩ := hr.dropWhile hrn fun p hp => hsol.2 p
            (by rwa [List.getLast?_append_of_ne_nil _ hrn])
          have hshort : (r.dropWhile Piece.isTrivia).length < n := by
            have := List.length_dropWhile_le Piece.isTrivia r
            have := List.length_pos_iff.mpr hs
            rw [← hlen, List.length_append]
            omega
          rw [← List.takeWhile_append_dropWhile (p := Piece.isTrivia) (l := r)] at hrest
          obtain ⟨m, hlm, hcm⟩ := hrest.split
          exact .more hpart (trivia_iff.mpr ⟨_, hlm, fun _ hp => List.mem_takeWhile_imp hp⟩)
            (ih _ hshort _ hcm hcseg hcsol hcn rfl)
      rcases hseg.cases with rfl | ⟨l, r, rfl, hr⟩ | ⟨d, r, rfl, hin, hcomma, hr⟩ | ⟨o, k, b, r, rfl, ho, hb, hr⟩
      · exact absurd rfl hn
      · obtain ⟨e, hl, hrest⟩ := h.split_cons
        have hnot : (Piece.literal l).isTrivia = false := hsol.1 _ rfl
        exact onward (s := [.literal l]) rfl (by simp) hr (.string (hl.opensComment.trans hnot) hl.skip_literal) hrest
      · obtain ⟨e, hd, hrest⟩ := h.split_cons
        obtain ⟨hskip, hget, rfl⟩ := hd.skip_char
        exact onward (s := [.char d]) rfl (by simp) hr (.char hskip hget hin hcomma (hsol.1 _ rfl)) hrest
      · rw [show Piece.char o :: (b ++ .char k :: r) = [.char o] ++ (b ++ ([.char k] ++ r)) by simp] at h
        obtain ⟨e, ho', hrest⟩ := h.split
        obtain ⟨-, hget, rfl⟩ := ho'.skip_char
        obtain ⟨m, hbm, hrest⟩ := hrest.split
        obtain ⟨m', hk, hrest⟩ := hrest.split
        obtain ⟨-, hkget, rfl⟩ := hk.skip_char
        have hm : Matched t i m := matched_iff.mpr ⟨o, k, b, hget, ho, hbm, hb, hkget⟩
        exact onward (s := .char o :: (b ++ [.char k])) (by simp) (by simp) hr (.group hm) hrest

lemma Trivia.le (h : Trivia t i j) : i ≤ j := by
  obtain ⟨ps, hps, -⟩ := trivia_iff.mp h
  exact hps.le

lemma Item.lt (h : Item t i j) : i < j := by
  obtain ⟨c, hc, -, -, hn⟩ := item_iff.mp h
  have := List.length_pos_iff.mpr (hc.lexed.textOf_ne_nil hn)
  have := hc.stop
  omega

namespace Partition

variable {items : List Argument}

lemma mem (h : Partition t closer i items) :
    ∀ item ∈ items, i ≤ item.span.start ∧ item.span.start < item.span.stop := by
  induction h with
  | nil => simp
  | last hl hi => simpa using ⟨hl.le, hi.lt⟩
  | cons hl hi ht _ _ _ ih =>
    refine List.forall_mem_cons.mpr ⟨⟨hl.le, hi.lt⟩, fun item hitem => ?_⟩
    have := ih item hitem
    have := hl.le
    have := hi.lt
    have := ht.le
    omega

lemma ascending (h : Partition t closer i items) : items.Pairwise fun a b => a.span.stop < b.span.start := by
  induction h with
  | nil => exact .nil
  | last => exact List.pairwise_singleton _ _
  | cons _ _ ht _ _ hrest ih =>
    refine List.pairwise_cons.mpr ⟨fun item hitem => ?_, ih⟩
    have := (hrest.mem item hitem).1
    have := ht.le
    omega

end Partition

lemma Between.around_core (h : Between t i j s) : ∃ n r, Between t i (i + (textOf (lead s)).length) (lead s) ∧
    Between t (i + (textOf (lead s)).length) n (core s) ∧ Between t n j r ∧ Trivial r := by
  obtain ⟨r, hr, hrt⟩ := exists_trail s
  rw [hr] at h
  obtain ⟨n, hin, hnj⟩ := h.split
  obtain ⟨m, him, hmn⟩ := hin.split
  rw [← him.stop]
  exact ⟨n, r, him, hmn, hnj, hrt⟩

lemma placed_argument (hs : Segment s) (hc : core s ≠ []) (h : Between t i j s) (separator : Option Nat) {item : Argument}
    (hitem : item = argumentAt (i + (textOf (lead s)).length) (core s) separator) :
    Trivia t i item.span.start ∧ Item t item.span.start item.span.stop ∧ Trivia t item.span.stop j := by
  obtain ⟨n, r, hl, hn, hr, hrt⟩ := h.around_core
  have hstop : item.span.stop = n := by rw [hitem, hn.stop, argumentAt]
  rw [hstop, hitem]
  exact ⟨trivia_iff.mpr ⟨_, hl, lead_trivial s⟩, item_iff.mpr ⟨_, hn, hs.core, core_solid s, hc⟩,
    trivia_iff.mpr ⟨_, hr, hrt⟩⟩

lemma partition_of_segments {segs : List (List Piece)} {items : List Argument} (hn : segs ≠ [])
    (hs : ∀ s ∈ segs, Segment s) (hb : Between t i closer (joined segs)) (h : argumentsFrom i segs = .ok items) :
    Partition t closer i items := by
  induction segs generalizing i items with
  | nil => exact absurd rfl hn
  | cons s rest ih =>
    have hseg := hs s List.mem_cons_self
    by_cases hrest : rest = []
    · subst hrest
      rw [argumentsFrom] at h
      obtain rfl := Except.ok.inj h
      split_ifs with hc
      · exact .nil (trivia_iff.mpr ⟨s, hb, core_eq_nil.mp hc⟩)
      · obtain ⟨hl, hi, ht⟩ := placed_argument hseg hc hb none rfl
        exact .last hl hi ht rfl
    · rw [argumentsFrom_cons hrest] at h
      split_ifs at h with hc
      obtain ⟨later, hlater, rfl⟩ := map_eq_ok.mp h
      rw [joined_cons hrest] at hb
      obtain ⟨p, hip, hpc⟩ := hb.split
      obtain ⟨p', hcomma, hrestb⟩ := hpc.split_cons
      obtain ⟨-, hget, rfl⟩ := hcomma.skip_char
      rw [← hip.stop] at hlater ⊢
      obtain ⟨hl, hi, ht⟩ := placed_argument hseg hc hip (some p) rfl
      exact .cons hl hi ht hget rfl (ih hrest (fun r hr => hs r (List.mem_cons_of_mem _ hr)) hrestb hlater)

lemma Trivia.not_past {p a b stop : Nat} (ha : Trivia t p a) (hb : Trivia t p b) (hstop : a = stop ∨ Item t a stop)
    (hle : b ≤ stop) : b ≤ a := by
  obtain ⟨l, hl, -⟩ := trivia_iff.mp ha
  obtain ⟨m, hm, hmt⟩ := trivia_iff.mp hb
  rcases hl.cut hm with ⟨rs, -, hrs⟩ | ⟨rs, rfl, hrs⟩
  · exact hrs.le
  · rcases hstop with rfl | hitem
    · exact hle
    · cases rs with
      | nil => exact Nat.le_of_eq hrs.stop
      | cons r rs =>
        obtain ⟨c, hc, -, hsol, hn⟩ := item_iff.mp hitem
        have hr : c.head? = some r := by
          rcases hrs.cut hc with ⟨rest, hrest, -⟩ | ⟨rest, rfl, -⟩
          · rw [← List.head?_append_of_ne_nil _ hn, ← hrest, List.head?_cons]
          · rfl
        have := hmt r (by simp)
        rw [hsol.1 r hr] at this
        simp at this

lemma Trivia.unique {p a b stop : Nat} (ha : Trivia t p a) (hb : Trivia t p b) (has : a = stop ∨ Item t a stop)
    (hbs : b = stop ∨ Item t b stop) : a = b := by
  have le_stop : ∀ {x}, x = stop ∨ Item t x stop → x ≤ stop := fun h => h.elim Nat.le_of_eq fun h => Nat.le_of_lt h.lt
  exact Nat.le_antisymm (hb.not_past ha hbs (le_stop has)) (ha.not_past hb has (le_stop hbs))

lemma Between.value (h : Between t i j c) (comma : Option Nat) :
    Between t (argumentAt i c comma).value.start (argumentAt i c comma).value.stop (valueOf c) := by
  obtain ⟨w, hw, -⟩ := exists_before_value h.lexed.lexed
  simp only [argumentAt]
  generalize valueOf c = v at hw ⊢
  subst hw
  obtain ⟨m, hwm, hmj⟩ := h.split
  have hstart : i + ((textOf (w ++ v)).length - (textOf v).length) = m := by
    rw [hwm.stop, textOf_append, List.length_append]
    omega
  rw [hstart, ← h.stop]
  exact hmj

/-- What is read at a place is a string only where one literal stands there. -/
lemma Between.valueAt? (h : Between t i j c) : StringLiteral.valueAt? t ⟨i, j⟩ = stringOf c := by
  rw [StringLiteral.valueAt?, h.stop, h.slice]
  exact decode?_textOf (z := []) ((List.append_nil c).symm ▸ h.lexed.lexed)

section Label

variable (h : Between t i j c) (hseg : Segment c) (hsol : Solid c) (comma : Option Nat)
include h hseg hsol

lemma argumentAt_value {name : Text} {n : Nat} (hl : label? (textOf c) = some (name, n)) :
    Trivia t (i + n) (argumentAt i c comma).value.start ∧
      ((argumentAt i c comma).value.start = (argumentAt i c comma).value.stop ∨
        Item t (argumentAt i c comma).value.start (argumentAt i c comma).value.stop) := by
  obtain ⟨w, c', rfl, hw, hord⟩ := exists_label h.lexed.lexed hl
  have hsplit : c'.takeWhile Piece.isTrivia ++ c'.dropWhile Piece.isTrivia = c' := List.takeWhile_append_dropWhile
  obtain ⟨m, hwm, hmj⟩ := h.split
  have hrest := hmj
  rw [← hsplit] at hmj
  obtain ⟨e, hme, hej⟩ := hmj.split
  have hm : m = i + n := by rw [hwm.stop, textOf_chars, hw]
  have hstop : (argumentAt i (chars w ++ c') comma).value.stop = j := h.stop.symm
  have hstart : (argumentAt i (chars w ++ c') comma).value.start = e := by
    have hvalue := (h.value comma).stop
    rw [hstop, valueOf_of_label hl hw, hej.stop] at hvalue
    omega
  rw [hstart, hstop, ← hm]
  refine ⟨trivia_iff.mpr ⟨_, hme, fun _ hp => List.mem_takeWhile_imp hp⟩, ?_⟩
  by_cases hn : c' = []
  · subst hn
    exact .inl hej.stop.symm
  · have hcseg := hseg.right (balanced_chars fun d hd => (hord d hd).2.1)
    obtain ⟨hvseg, hvsol, hvn⟩ := hcseg.dropWhile hn fun p hp => hsol.2 p
      (by rwa [List.getLast?_append_of_ne_nil _ hn])
    exact .inr (item_iff.mpr ⟨_, hej, hvseg, hvsol, hvn⟩)

lemma argumentAt_labelled {name : Text} {value : Span} : (argumentAt i c comma).label = some name ∧
    (argumentAt i c comma).value = value ↔ Labelled t (argumentAt i c comma).span name value := by
  have hslice : t.slice (argumentAt i c comma).span.start (argumentAt i c comma).span.stop = textOf c := h.slice
  rw [Labelled, hslice]
  constructor
  · rintro ⟨hname, rfl⟩
    obtain ⟨⟨name, n⟩, hl, rfl⟩ := Option.map_eq_some_iff.mp hname
    obtain ⟨blanks, rest, hheading, rfl⟩ := label?_iff.mp hl
    obtain ⟨htrivia, hvalue⟩ := argumentAt_value h hseg hsol comma hl
    exact ⟨blanks, rest, hheading, htrivia, rfl, hvalue⟩
  · rintro ⟨blanks, rest, hheading, htrivia, hstop, hvalue⟩
    have hl := label?_iff.mpr ⟨blanks, rest, hheading, rfl⟩
    obtain ⟨htrivia', hvalue'⟩ := argumentAt_value h hseg hsol comma hl
    refine ⟨Option.map_eq_some_iff.mpr ⟨_, hl, rfl⟩, ?_⟩
    have hstart := htrivia'.unique htrivia hvalue' (hstop ▸ hvalue)
    cases value
    exact congrArg₂ Interval.mk hstart hstop.symm

end Label

lemma argumentAt_unlabelled {comma : Option Nat} (h : (argumentAt i c comma).label = none) :
    (argumentAt i c comma).value = (argumentAt i c comma).span := by
  have hl : label? (textOf c) = none := Option.map_eq_none_iff.mp h
  simp [argumentAt, valueOf, hl]

lemma exists_core {segs : List (List Piece)} {items : List Argument} (hs : ∀ s ∈ segs, Segment s)
    (hb : Between t i closer (joined segs)) (h : argumentsFrom i segs = .ok items) : ∀ item ∈ items,
      ∃ m n c comma, Between t m n c ∧ Segment c ∧ Solid c ∧ item = argumentAt m c comma := by
  intro item hitem
  obtain ⟨before, after, rfl⟩ := List.append_of_mem hitem
  obtain ⟨u, s, v, rfl, -, -, rfl⟩ := argumentsFrom_split h
  rw [joined_mid] at hb
  obtain ⟨n₁, hn₁, -⟩ := hb.split
  obtain ⟨n₂, hlead, hs'⟩ := hn₁.split
  obtain ⟨n₃, r, -, hcore, -⟩ := hs'.around_core
  rw [hlead.stop] at hcore
  exact ⟨_, n₃, core s, _, hcore, (hs s (by simp)).core, core_solid s, rfl⟩

lemma exists_argumentsFrom_error_iff {segs : List (List Piece)} {pos : Nat} :
    (∃ x, argumentsFrom pos segs = .error x) ↔ ∃ s ∈ segs.dropLast, core s = [] := by
  induction segs generalizing pos with
  | nil => simp [argumentsFrom]
  | cons s rest ih =>
    by_cases hrest : rest = []
    · simp [hrest, argumentsFrom]
    · rw [argumentsFrom_cons hrest, List.dropLast_cons_of_ne_nil hrest]
      split_ifs with hs
      · simp [hs]
      · simp [map_eq_error, ih, hs]

lemma argumentsFrom_structural (segs : List (List Piece)) (pos : Nat) : Structural (argumentsFrom pos segs) := by
  induction segs generalizing pos with
  | nil => exact .ok _
  | cons s rest ih =>
    by_cases hrest : rest = []
    · subst hrest
      exact .ok _
    · rw [argumentsFrom_cons hrest]
      split_ifs
      · exact .error rfl
      · exact (ih _).map _

lemma splitArguments_of_error {e : ScanError} (h : findClosing t opener = .error e) :
    splitArguments t opener = .error e := by
  rw [splitArguments, h]
  rfl

lemma splitArguments_structural {o k : Char} (ho : t[opener]? = some o) (hk : closerOf? o = some k) :
    Structural (splitArguments t opener) := by
  cases hf : findClosing t opener with
  | error e =>
    rw [splitArguments_of_error hf]
    exact .error (findClosing_structural hk (drop_eq_cons.mp ho) e hf)
  | ok closer =>
    obtain ⟨u, o, k, b, z, hg, rfl⟩ := grouped_of_findClosing hf
    rw [hg.text, splitArguments_eq hg.brackets hg.balanced hg.lexed]
    exact (argumentsFrom_structural _ _).map _

section Body

variable {o k : Char} {b : List Piece} (hk : closerOf? o = some k) (hb : Between t (opener + 1) closer b)
  (hbal : Balanced b) (hc : t[closer]? = some k)
include hk hb hbal hc

lemma Level.within {p : Nat} (h : Level t (opener + 1) p) :
    ∃ ps rs, b = ps ++ rs ∧ Balanced ps ∧ Between t (opener + 1) p ps ∧ Between t p closer rs := by
  obtain ⟨ps, hps, hpsb⟩ := level_iff.mp h
  rcases hb.cut hps with ⟨rs, rfl, hrs⟩ | ⟨rs, rfl, hrs⟩
  · exact ⟨ps, rs, rfl, hpsb, hps, hrs⟩
  · by_cases hp : closer = p
    · subst hp
      exact ⟨b, [], by simp, hbal, hb, .nil _ _⟩
    · -- the closer would be met where no group is open
      obtain ⟨rest, rfl, -⟩ := hrs.head (plain_of_closerOf? hk).2 hc hp
      obtain ⟨-, hnone, hclose⟩ := isCloser_of_closerOf? hk
      have hbad : walk [] (.char k :: rest) = some [] := hbal.right hpsb
      simp [walk, Piece.walk, hnone, hclose] at hbad

lemma Level.closes {p : Nat} {o' k' : Char} (h : Level t (opener + 1) p) (hp : t[p]? = some o')
    (ho : closerOf? o' = some k') : ∃ c, findClosing t p = .ok c ∧ c < closer := by
  obtain ⟨ps, rs, rfl, hps, -, hrs⟩ := Level.within hk hb hbal hc h
  have hne : p ≠ closer := by
    rintro rfl
    obtain rfl : o' = k := Option.some.inj (hp.symm.trans hc)
    simp [(isCloser_of_closerOf? hk).2.1] at ho
  obtain ⟨rest, rfl, hrest⟩ := hrs.head (plain_of_closerOf? ho).1 hp hne
  have hw : walk [k'] rest = some [] := (walk_opener ho [] rest).symm.trans (hps.right hbal)
  obtain ⟨b, z, rfl, hin, -⟩ := exists_closed hw
  obtain ⟨c, hpc, hcc⟩ := hrest.split
  obtain ⟨e, hk', hz⟩ := hcc.split_cons
  obtain ⟨-, hget, rfl⟩ := hk'.skip_char
  exact ⟨c, findClosing_eq_ok.mpr (matched_iff.mpr ⟨o', k', b, hp, ho, hpc, hin, hget⟩), hz.le⟩

lemma BareComma.exists_segment {p : Nat} (h : BareComma t opener p) : ∃ s ∈ (segments b).dropLast, core s = [] := by
  have plain : Plain ',' := by decide
  obtain ⟨hlevel, hp, q, hq, hstart⟩ := h
  obtain ⟨ps, rs, rfl, hps, hpsb, hrs⟩ := Level.within hk hb hbal hc hlevel
  have hne : p ≠ closer := by
    rintro rfl
    obtain rfl : ',' = k := Option.some.inj (hp.symm.trans hc)
    simpa [isCloser] using (isCloser_of_closerOf? hk).2.2
  obtain ⟨rest, rfl, -⟩ := hrs.head plain hp hne
  obtain ⟨s, hs, hst⟩ := trivia_iff.mp hq
  refine ⟨s, ?_, core_eq_nil.mpr hst⟩
  rw [show Piece.char ',' = comma from rfl, segments_comma hps, List.dropLast_append_of_ne_nil (segments_ne_nil rest)]
  refine List.mem_append_left _ ?_
  rcases hstart with rfl | ⟨m, hm, hmc, rfl⟩
  · rw [hpsb.unique hs, segments_of_segment hst.segment]
    exact List.mem_singleton_self s
  · obtain ⟨u, hu, hub⟩ := level_iff.mp hm
    have hcomma : Between t m (m + 1) [comma] := .char (skipLiteral?_plain hmc plain) hmc
    rw [hpsb.unique (hu.append (hcomma.append hs)), List.singleton_append, segments_comma hub,
      segments_of_segment hst.segment]
    simp

omit hk hc in
lemma exists_bareComma (hs : s ∈ (segments b).dropLast) (hcore : core s = []) : ∃ p, BareComma t opener p := by
  obtain ⟨u, v, huv⟩ := List.append_of_mem hs
  have hsegs : segments b = u ++ s :: (v ++ [(segments b).getLast (segments_ne_nil b)]) := by
    conv_lhs => rw [← List.dropLast_append_getLast (segments_ne_nil b), huv]
    simp
  generalize (segments b).getLast (segments_ne_nil b) = last at hsegs
  have hall : ∀ r ∈ u ++ [s], Segment r := fun r hr => segment_of_mem hbal (by
    rw [hsegs]
    simp only [List.mem_append, List.mem_cons, List.not_mem_nil, or_false] at hr ⊢
    rcases hr with hr | hr <;> simp [hr])
  obtain rfl : leading u ++ (s ++ comma :: joined (v ++ [last])) = b := by
    rw [← joined_segments b, hsegs, joined_mid u, following_eq (by simp), List.append_assoc]
  obtain ⟨q, hu, hq⟩ := hb.split
  obtain ⟨p, hqp, hp⟩ := hq.split
  obtain ⟨e, hcomma, -⟩ := hp.split_cons
  have hub : Balanced (leading u) := leading_balanced fun r hr => hall r (by simp [hr])
  have hst : Trivial s := core_eq_nil.mp hcore
  refine ⟨p, level_iff.mpr ⟨_, hu.append hqp, hub.append (trivial_balanced hst)⟩, hcomma.skip_char.2.1, q,
    trivia_iff.mpr ⟨s, hqp, hst⟩, ?_⟩
  rcases List.eq_nil_or_concat' u with rfl | ⟨u, r, rfl⟩
  · exact .inl hu.stop
  · have hlead : leading (u ++ [r]) = (leading u ++ r) ++ [comma] := by simp [leading]
    rw [hlead] at hu hub
    obtain ⟨m, hm, hmc⟩ := hu.split
    obtain ⟨-, hget, rfl⟩ := hmc.skip_char
    have hmb : Balanced (leading u ++ r) := Balanced.left (show Balanced [comma] from rfl) hub
    exact .inr ⟨m, level_iff.mpr ⟨_, hm, hmb⟩, hget, rfl⟩

lemma splitArguments_of_body (ho : t[opener]? = some o) : splitArguments t opener =
    (argumentsFrom (opener + 1) (segments b)).map fun items => ⟨opener, closer, items⟩ := by
  obtain ⟨hg, hlen⟩ := Between.grouped ho hk hb hbal hc
  have h := splitArguments_eq (u := t.take opener) hg.brackets hg.balanced hg.lexed
  have hstop : opener + (textOf b).length + 1 = closer := by
    rw [hb.stop]
    omega
  rwa [← hg.text, hlen, hstop] at h

end Body

/-- A list is read as the grammar of lists has it, or else its bracket is not closed, or it has a comma that no item
stands before. Every group of its items is closed before the list. -/
theorem splitArguments_partitions {o k : Char} (ho : t[opener]? = some o) (hk : closerOf? o = some k) :
    (∀ args, splitArguments t opener = .ok args → args.Partitions t opener) ∧
    (∀ e, splitArguments t opener = .error e → e.isStructural = true) ∧
    ((∃ e, splitArguments t opener = .error e) ↔
      (∃ e, findClosing t opener = .error e) ∨ ∃ p, BareComma t opener p) ∧
    ∀ closer p o' k', findClosing t opener = .ok closer → Level t (opener + 1) p → t[p]? = some o' →
      closerOf? o' = some k' → ∃ c, findClosing t p = .ok c ∧ c < closer := by
  have hstruct := splitArguments_structural ho hk
  cases hf : findClosing t opener with
  | error e =>
    rw [splitArguments_of_error hf] at hstruct ⊢
    exact ⟨by simp, hstruct, by simp, by simp⟩
  | ok closer =>
    obtain ⟨o', k', b, ho', hk', hb, hbal, hc⟩ := matched_iff.mp (findClosing_eq_ok.mp hf)
    have hsplit := splitArguments_of_body hk' hb hbal hc ho'
    have hsegs : ∀ s ∈ segments b, Segment s := fun s hs => segment_of_mem hbal hs
    have hbare : (∃ p, BareComma t opener p) ↔ ∃ s ∈ (segments b).dropLast, core s = [] := by
      constructor
      · rintro ⟨p, hp⟩
        exact hp.exists_segment hk' hb hbal hc
      · rintro ⟨s, hs, hcore⟩
        exact exists_bareComma hb hbal hs hcore
    rw [hbare]
    refine ⟨fun args hargs => ?_, hstruct, ?_, ?_⟩
    · rw [hsplit] at hargs
      obtain ⟨items, hitems, rfl⟩ := map_eq_ok.mp hargs
      have hb' : Between t (opener + 1) closer (joined (segments b)) := by rwa [joined_segments]
      have hpart := partition_of_segments (segments_ne_nil b) hsegs hb' hitems
      have hcores := exists_core hsegs hb' hitems
      refine ⟨rfl, hf, hpart, fun item hi => ?_, hpart.ascending, fun item hi => ?_, fun item hi => ?_⟩
      · exact (hpart.mem item hi).2
      · obtain ⟨m, n, c, comma, -, -, -, rfl⟩ := hcores item hi
        exact argumentAt_unlabelled
      · obtain ⟨m, n, c, comma, hmn, hcseg, hcsol, rfl⟩ := hcores item hi
        exact fun name value => argumentAt_labelled hmn hcseg hcsol comma
    · simp only [hsplit, map_eq_error, exists_argumentsFrom_error_iff, reduceCtorEq, exists_false, false_or]
    · intro closer' p o' k' hcloser hlevel hp ho'
      obtain rfl := Except.ok.inj hcloser
      exact Level.closes hk' hb hbal hc hlevel hp ho'

def listOfLists : Text := "[a, b: [x],]".toList

theorem partitions_listOfLists :
    (∃ args, splitArguments listOfLists 0 = .ok args ∧ args.items.length = 2 ∧ args.Partitions listOfLists 0) ∧
    (∃ c, findClosing listOfLists 7 = .ok c ∧ c < 11) ∧
    ∃ e, splitArguments "[a,,]".toList 0 = .error e ∧ e.isStructural = true := by
  obtain ⟨hok, -, -, hinner⟩ := splitArguments_partitions (show listOfLists[0]? = some '[' from rfl) rfl
  obtain ⟨-, hstruct, herror, -⟩ := splitArguments_partitions (show "[a,,]".toList[0]? = some '[' from rfl) rfl
  have hlevel : Level listOfLists 1 7 :=
    .char (c := 'a') rfl rfl (by decide) (.char (c := ',') rfl rfl (by decide) (.char (c := ' ') rfl rfl (by decide)
      (.char (c := 'b') rfl rfl (by decide) (.char (c := ':') rfl rfl (by decide) (.char (c := ' ') rfl rfl (by decide)
        (.refl 7))))))
  have hfirst : Level "[a,,]".toList 1 2 := .char (c := 'a') rfl rfl (by decide) (.refl 2)
  have hbare : BareComma "[a,,]".toList 0 3 :=
    ⟨.char (c := 'a') rfl rfl (by decide) (.char (c := ',') rfl rfl (by decide) (.refl 3)), rfl, 3, .refl 3,
      .inr ⟨2, hfirst, rfl, rfl⟩⟩
  obtain ⟨e, he⟩ := herror.mpr (.inr ⟨3, hbare⟩)
  exact ⟨⟨_, rfl, rfl, hok _ rfl⟩, hinner 11 7 '[' ']' rfl hlevel rfl rfl, e, he, hstruct e he⟩

end PackageInstaller.Manifest
