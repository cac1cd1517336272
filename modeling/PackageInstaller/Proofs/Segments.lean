import Mathlib.Data.List.DropRight
import PackageInstaller.Manifest.ArgumentList
import PackageInstaller.Proofs.Brackets

/-! The segments of a bracket group: what its outermost commas separate. Each has a core, which is what
is left of it without the blanks and comments around. -/

namespace PackageInstaller.Manifest

/-- What is asked of the characters of a text is asked of one after the other. -/
instance (t : Text) (p : Char → Prop) [DecidablePred p] : Decidable (∀ c ∈ t, p c) :=
  List.decidableBAll p t

def comma : Piece := .char ','

def Piece.isTrivia : Piece → Bool
  | .char c => Text.isBlank c
  | .literal l => l.head? = some '/'

/-- Characters that begin no literal, and neither bracket nor separate. -/
def Ordinary (c : Char) : Prop := Plain c ∧ Inner c ∧ c ≠ ','

instance (c : Char) : Decidable (Ordinary c) := inferInstanceAs (Decidable (_ ∧ _))

def specials : List Char := ['/', '"', '#', '(', ')', '[', ']', '{', '}', ',']

lemma ordinary_of {p : Char → Bool} (hp : ∀ d ∈ specials, p d = false) {c : Char} (h : p c = true) :
    Ordinary c := by
  have hc : c ∉ specials := fun hm => by simp [hp c hm] at h
  simp only [specials, List.mem_cons, not_or] at hc
  simp [Ordinary, Plain, Inner, closerOf?, isCloser, hc]

lemma ordinary_of_isBlank {c : Char} (h : Text.isBlank c = true) : Ordinary c :=
  ordinary_of (by decide) h

lemma ordinary_of_isWord {c : Char} (h : Text.isWord c = true) : Ordinary c :=
  ordinary_of (by decide) h

lemma ordinary_of_isLabelStart {c : Char} (h : Text.isLabelStart c = true) : Ordinary c :=
  ordinary_of (by decide) h

@[simp] lemma isTrivia_char (c : Char) : (Piece.char c).isTrivia = Text.isBlank c := rfl

def segmentsFrom : List Char → List Piece → List (List Piece)
  | _, [] => [[]]
  | expected, p :: ps =>
    if expected = [] ∧ p = comma then [] :: segmentsFrom [] ps
    else (segmentsFrom ((p.walk expected).getD []) ps).modifyHead (p :: ·)

def segments (b : List Piece) : List (List Piece) := segmentsFrom [] b

def joined : List (List Piece) → List Piece
  | [] => []
  | [s] => s
  | s :: rest => s ++ comma :: joined rest

/-- Whether no comma stands where nothing is expected. -/
def Flat (expected : List Char) (s : List Piece) : Prop :=
  ∀ a c, s = a ++ comma :: c → walk expected a ≠ some []

structure Segment (s : List Piece) : Prop where
  balanced : Balanced s
  flat : Flat [] s

lemma joined_cons {s : List Piece} {rest : List (List Piece)} (h : rest ≠ []) :
    joined (s :: rest) = s ++ comma :: joined rest := by
  cases rest with
  | nil => exact absurd rfl h
  | cons r rest => rfl

lemma segmentsFrom_ne_nil (expected : List Char) (ps : List Piece) :
    segmentsFrom expected ps ≠ [] := by
  induction ps generalizing expected with
  | nil => simp [segmentsFrom]
  | cons p ps ih =>
    rw [segmentsFrom]
    split_ifs with h
    · simp
    · obtain ⟨s, rest, hs⟩ := List.exists_cons_of_ne_nil (ih ((p.walk expected).getD []))
      simp [hs]

lemma segments_ne_nil (b : List Piece) : segments b ≠ [] := segmentsFrom_ne_nil [] b

lemma joined_segmentsFrom (expected : List Char) (ps : List Piece) :
    joined (segmentsFrom expected ps) = ps := by
  induction ps generalizing expected with
  | nil => rfl
  | cons p ps ih =>
    rw [segmentsFrom]
    split_ifs with h
    · rw [joined_cons (segmentsFrom_ne_nil [] ps), ih, h.2, List.nil_append]
    · have hj := ih ((p.walk expected).getD [])
      obtain ⟨s, rest, hs⟩ := List.exists_cons_of_ne_nil
        (segmentsFrom_ne_nil ((p.walk expected).getD []) ps)
      rw [hs] at hj ⊢
      rw [List.modifyHead_cons, ← hj]
      cases rest <;> rfl

lemma joined_segments (b : List Piece) : joined (segments b) = b := joined_segmentsFrom [] b

lemma Flat.tail {expected after : List Char} {p : Piece} {s : List Piece}
    (h : Flat expected (p :: s)) (hp : p.walk expected = some after) : Flat after s := by
  rintro a c rfl hw
  exact h (p :: a) c rfl (by rw [walk, hp]; exact hw)

lemma segmentsFrom_flat {expected after : List Char} {s : List Piece} (z : List Piece)
    (hw : walk expected s = some after) (hf : Flat expected s) :
    segmentsFrom expected (s ++ z) = (segmentsFrom after z).modifyHead (s ++ ·) := by
  induction s generalizing expected with
  | nil =>
    obtain rfl : expected = after := by simpa using hw
    obtain ⟨s, rest, hs⟩ := List.exists_cons_of_ne_nil (segmentsFrom_ne_nil expected z)
    simp [hs]
  | cons p s ih =>
    rw [walk, Option.bind_eq_some_iff] at hw
    obtain ⟨next, hp, hw⟩ := hw
    have hc : ¬(expected = [] ∧ p = comma) := by
      rintro ⟨rfl, rfl⟩
      exact hf [] s rfl rfl
    rw [List.cons_append, segmentsFrom, if_neg hc, hp, Option.getD_some, ih hw (hf.tail hp)]
    obtain ⟨r, rest, hr⟩ := List.exists_cons_of_ne_nil (segmentsFrom_ne_nil after z)
    simp [hr]

lemma segmentsFrom_comma {expected : List Char} {a : List Piece} (h : walk expected a = some []) (z : List Piece) :
    segmentsFrom expected (a ++ comma :: z) = segmentsFrom expected a ++ segments z := by
  induction a generalizing expected with
  | nil =>
    obtain rfl : expected = [] := by simpa using h
    simp [segmentsFrom, segments]
  | cons p a ih =>
    rw [walk, Option.bind_eq_some_iff] at h
    obtain ⟨after, hp, hw⟩ := h
    rw [List.cons_append, segmentsFrom, segmentsFrom]
    split_ifs with hcomma
    · obtain ⟨rfl, rfl⟩ := hcomma
      obtain rfl : [] = after := Option.some.inj hp
      rw [ih hw]
      rfl
    · rw [hp, Option.getD_some, ih hw]
      obtain ⟨s, rest, hs⟩ := List.exists_cons_of_ne_nil (segmentsFrom_ne_nil after a)
      simp [hs]

lemma segments_comma {a : List Piece} (h : Balanced a) (z : List Piece) :
    segments (a ++ comma :: z) = segments a ++ segments z := segmentsFrom_comma h z

lemma segments_of_segment {s : List Piece} (h : Segment s) : segments s = [s] := by
  have := segmentsFrom_flat [] h.balanced h.flat
  simpa [segments, segmentsFrom] using this

lemma segments_cons_comma {s : List Piece} (h : Segment s) (z : List Piece) :
    segments (s ++ comma :: z) = s :: segments z := by
  rw [segments_comma h.balanced, segments_of_segment h]
  rfl

theorem segments_joined {segs : List (List Piece)} (hn : segs ≠ []) (h : ∀ s ∈ segs, Segment s) :
    segments (joined segs) = segs := by
  induction segs with
  | nil => exact absurd rfl hn
  | cons s rest ih =>
    cases rest with
    | nil => exact segments_of_segment (h s List.mem_cons_self)
    | cons r rest =>
      rw [joined_cons (by simp), segments_cons_comma (h s List.mem_cons_self),
        ih (by simp) fun t ht => h t (List.mem_cons_of_mem _ ht)]

lemma segmentsFrom_segment {expected : List Char} {ps s : List Piece} {rest : List (List Piece)}
    (hw : walk expected ps = some []) (h : segmentsFrom expected ps = s :: rest) :
    walk expected s = some [] ∧ Flat expected s ∧ ∀ r ∈ rest, Segment r := by
  induction ps generalizing expected s rest with
  | nil =>
    obtain ⟨rfl, rfl⟩ : s = [] ∧ rest = [] := by simpa [segmentsFrom, eq_comm] using h
    exact ⟨hw, fun a c hc => by simp at hc, by simp⟩
  | cons p ps ih =>
    rw [segmentsFrom] at h
    rw [walk, Option.bind_eq_some_iff] at hw
    obtain ⟨next, hp, hw⟩ := hw
    rw [hp, Option.getD_some] at h
    split_ifs at h with hc
    · obtain ⟨rfl, rfl⟩ := hc
      obtain ⟨rfl, rfl⟩ := List.cons.inj h
      obtain rfl : next = [] := by
        rcases Piece.walk_cases hp with ⟨o, k, ho, hk, -⟩ | ⟨c, hcc, -, hk, -⟩ | ⟨rfl, -⟩
        · cases ho
          simp [closerOf?] at hk
        · cases hcc
          simp [isCloser] at hk
        · rfl
      obtain ⟨r, later, hr⟩ := List.exists_cons_of_ne_nil (segmentsFrom_ne_nil [] ps)
      obtain ⟨h₁, h₂, h₃⟩ := ih hw hr
      refine ⟨rfl, fun a c hc => by simp at hc, fun t ht => ?_⟩
      rw [hr] at ht
      rcases List.mem_cons.mp ht with rfl | ht
      · exact ⟨h₁, h₂⟩
      · exact h₃ t ht
    · obtain ⟨r, later, hr⟩ := List.exists_cons_of_ne_nil (segmentsFrom_ne_nil next ps)
      rw [hr, List.modifyHead_cons] at h
      obtain ⟨rfl, rfl⟩ := List.cons.inj h
      obtain ⟨h₁, h₂, h₃⟩ := ih hw hr
      refine ⟨by rw [walk, hp]; exact h₁, fun a c hac => ?_, h₃⟩
      cases a with
      | nil =>
        obtain ⟨rfl, rfl⟩ := List.cons.inj hac
        exact fun he => hc ⟨by simpa using he, rfl⟩
      | cons q a =>
        obtain ⟨rfl, rfl⟩ := List.cons.inj hac
        rw [walk, hp]
        exact h₂ a c rfl

theorem segment_of_mem {b s : List Piece} (h : Balanced b) (hs : s ∈ segments b) : Segment s := by
  obtain ⟨r, rest, hr⟩ := List.exists_cons_of_ne_nil (segments_ne_nil b)
  obtain ⟨h₁, h₂, h₃⟩ := segmentsFrom_segment h hr
  rw [hr] at hs
  rcases List.mem_cons.mp hs with rfl | hs
  · exact ⟨h₁, h₂⟩
  · exact h₃ s hs

lemma Segment.nil : Segment [] := ⟨.nil, fun a c h => by simp at h⟩

lemma Segment.append {s t : List Piece} (hs : Segment s) (ht : Segment t) : Segment (s ++ t) := by
  refine ⟨hs.balanced.append ht.balanced, fun a c h hw => ?_⟩
  rcases append_eq_append_cons h with ⟨d, rfl, hd⟩ | ⟨d, hd, -⟩
  · rw [walk_append, hs.balanced] at hw
    exact ht.flat d c hd hw
  · exact hs.flat a d hd hw

lemma Segment.literal (l : Text) : Segment [.literal l] := by
  refine ⟨rfl, fun a c h => ?_⟩
  cases a with
  | nil => simp [comma] at h
  | cons p a => simp at h

lemma Segment.char {c : Char} (h : Inner c) (hc : c ≠ ',') : Segment [.char c] := by
  refine ⟨walk_inner h [] [], fun a d ha => ?_⟩
  cases a with
  | nil => simp [comma, hc] at ha
  | cons p a => simp at ha

lemma Segment.chars {w : Text} (h : ∀ c ∈ w, Ordinary c) : Segment (chars w) := by
  induction w with
  | nil => exact .nil
  | cons c w ih =>
    obtain ⟨-, h₁, h₂⟩ := h c List.mem_cons_self
    exact (Segment.char h₁ h₂).append (ih fun d hd => h d (List.mem_cons_of_mem _ hd))

lemma Flat.of_walk {expected : List Char} {k : Char} {s : List Piece} (hs : Balanced s) :
    Flat (expected ++ [k]) s := by
  rintro a c rfl hw
  obtain ⟨after, ha⟩ := exists_walk_left hs
  have := walk_below (expected ++ [k]) ha
  rw [List.nil_append, hw] at this
  simp at this

lemma Segment.group {o k : Char} {b : List Piece} (ho : closerOf? o = some k) (hb : Balanced b) :
    Segment (.char o :: (b ++ [.char k])) := by
  refine ⟨hb.group ho, fun a c h hw => ?_⟩
  cases a with
  | nil =>
    obtain ⟨hc, -⟩ := List.cons.inj h
    cases hc
    simp [closerOf?] at ho
  | cons p a =>
    obtain ⟨rfl, hba⟩ := List.cons.inj h
    rw [walk_opener ho] at hw
    rcases append_eq_append_cons hba with ⟨d, -, hd⟩ | ⟨d, hd, -⟩
    · cases d with
      | nil =>
        obtain ⟨hc, -⟩ := List.cons.inj hd
        cases hc
        obtain ⟨-, -, hk⟩ := isCloser_of_closerOf? ho
        simp [isCloser] at hk
      | cons q d => simp at hd
    · exact @Flat.of_walk [] _ _ hb a d hd hw

/-- A segment begins with a literal, with a character that is no bracket, or with a whole group. -/
lemma Segment.cases {s : List Piece} (h : Segment s) :
    s = [] ∨ (∃ l r, s = .literal l :: r ∧ Segment r) ∨
      (∃ c r, s = .char c :: r ∧ Inner c ∧ c ≠ ',' ∧ Segment r) ∨
      ∃ o k b r, s = .char o :: (b ++ .char k :: r) ∧ closerOf? o = some k ∧ Balanced b ∧
        Segment r := by
  obtain ⟨hb, hf⟩ := h
  induction s, hb using Balanced.induction with
  | nil => exact .inl rfl
  | literal l r hr => exact .inr (.inl ⟨l, r, rfl, hr, hf.tail rfl⟩)
  | char c r hc hr =>
    refine .inr (.inr (.inl ⟨c, r, rfl, hc, ?_, hr, hf.tail (by simp [Piece.walk, hc.1, hc.2])⟩))
    rintro rfl
    exact hf [] r rfl rfl
  | group o k b r ho hb hr =>
    refine .inr (.inr (.inr ⟨o, k, b, r, rfl, ho, hb, hr, fun a c hac hw => ?_⟩))
    refine hf (.char o :: (b ++ .char k :: a)) c (by simp [hac]) ?_
    rw [walk_opener ho, walk_append, Balanced.walk hb, Option.bind_some, walk_closer ho, hw]

lemma Segment.exchange {a m n b : List Piece} {k : Char} {s : List Char}
    (h : Segment (a ++ m ++ b)) (hw : walk [] a = some (k :: s)) (hm : Balanced m)
    (hn : Balanced n) : Segment (a ++ n ++ b) := by
  refine ⟨(walk_exchange hm hn []).trans h.balanced, fun x c hx hwx => ?_⟩
  rw [List.append_assoc] at hx
  rcases append_eq_append_cons hx with ⟨d, rfl, hd⟩ | ⟨d, rfl, -⟩
  · rcases append_eq_append_cons hd with ⟨f, rfl, hf⟩ | ⟨f, rfl, -⟩
    · refine h.flat (a ++ m ++ f) c (by rw [hf]; simp) ?_
      rw [walk_append, walk_append, hw, Option.bind_some, hm.walk, Option.bind_some]
      rwa [walk_append, hw, Option.bind_some, walk_append, hn.walk, Option.bind_some] at hwx
    · obtain ⟨t, ht⟩ := exists_walk_left hn
      have := walk_below (k :: s) ht
      rw [walk_append, hw, Option.bind_some] at hwx
      rw [List.nil_append, hwx] at this
      simp at this
  · exact h.flat x (d ++ m ++ b) (by simp) hwx

end PackageInstaller.Manifest
