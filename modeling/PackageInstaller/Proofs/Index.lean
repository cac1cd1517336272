import PackageInstaller.Proofs.Pieces

/-! The index of literals: halving finds what a search through all of them would find. -/

namespace PackageInstaller.Manifest

/-- Spans one after the other, none of them empty. -/
def Ordered (spans : List Span) : Prop :=
  (∀ span ∈ spans, span.start < span.stop) ∧ spans.Pairwise fun a b => a.stop ≤ b.start

lemma literalSpans_start_le {ps : List Piece} {pos : Nat} {span : Span}
    (h : span ∈ literalSpans pos ps) : pos ≤ span.start := by
  induction ps generalizing pos with
  | nil => simp [literalSpans] at h
  | cons p ps ih =>
    cases p with
    | char c => exact Nat.le_of_succ_le (ih h)
    | literal l =>
      rcases List.mem_cons.mp h with rfl | h
      · exact Nat.le_refl _
      · exact Nat.le_trans (Nat.le_add_right _ _) (ih h)

lemma literalSpans_stop_le {ps : List Piece} {pos : Nat} {span : Span}
    (h : span ∈ literalSpans pos ps) : span.stop ≤ pos + (textOf ps).length := by
  obtain ⟨a, l, b, rfl, rfl⟩ := mem_literalSpans.mp h
  simp only [textOf_append, textOf_cons, List.length_append, Piece.text]
  omega

lemma literalSpans_ordered {ps : List Piece} (pos : Nat) (h : Lexed ps) :
    Ordered (literalSpans pos ps) := by
  induction h generalizing pos with
  | nil => exact ⟨by simp [literalSpans], .nil⟩
  | char _ _ ih => exact ih (pos + 1)
  | @literal l ps hl _ ih =>
    obtain ⟨h₁, h₂⟩ := ih (pos + l.length)
    have := literalLength?_bounds hl
    refine ⟨fun span hs => ?_, h₂.cons fun span hs => literalSpans_start_le hs⟩
    rcases List.mem_cons.mp hs with rfl | hs
    · simp only
      omega
    · exact h₁ span hs

lemma countStarted_spec {spans : Array Span} {offset : Int} {low high : Nat}
    (hs : ∀ (i j : Nat) (a b : Span), i ≤ j → spans[i]? = some a → spans[j]? = some b → a.start ≤ b.start)
    (hlow : ∀ (i : Nat) (a : Span), i < low → spans[i]? = some a → (a.start : Int) ≤ offset)
    (hhigh : ∀ (i : Nat) (a : Span), high ≤ i → spans[i]? = some a → offset < (a.start : Int)) (hle : low ≤ high)
    (hsize : high ≤ spans.size) :
    (∀ (i : Nat) (a : Span), i < LiteralIndex.countStarted spans offset low high → spans[i]? = some a →
      (a.start : Int) ≤ offset) ∧
    (∀ (i : Nat) (a : Span), LiteralIndex.countStarted spans offset low high ≤ i → spans[i]? = some a →
      offset < (a.start : Int)) ∧
    LiteralIndex.countStarted spans offset low high ≤ high := by
  fun_induction LiteralIndex.countStarted spans offset low high with
  | case1 low high hlt middle hn =>
    rw [Array.getElem?_eq_none_iff] at hn
    omega
  | case2 low high hlt middle span hm hlt' ih =>
    obtain ⟨h₁, h₂, h₃⟩ := ih hlow (fun i a hi ha => by
      have := hs _ _ _ _ hi hm ha
      omega) (by omega) (by omega)
    exact ⟨h₁, h₂, by omega⟩
  | case3 low high hlt middle span hm hge ih =>
    refine ih (fun i a hi ha => ?_) hhigh (by omega) (by omega)
    have := hs _ _ _ _ (Nat.le_of_lt_succ hi) ha hm
    omega
  | case4 low high hge =>
    obtain rfl : low = high := by omega
    exact ⟨hlow, hhigh, Nat.le_refl _⟩

lemma Ordered.apart {spans : List Span} {i j : Nat} {a b : Span} (h : Ordered spans) (hij : i < j)
    (ha : spans[i]? = some a) (hb : spans[j]? = some b) : a.stop ≤ b.start := by
  obtain ⟨hi, rfl⟩ := List.getElem?_eq_some_iff.mp ha
  obtain ⟨hj, rfl⟩ := List.getElem?_eq_some_iff.mp hb
  exact List.pairwise_iff_getElem.mp h.2 i j hi hj hij

lemma Ordered.starts {spans : List Span} {i j : Nat} {a b : Span} (h : Ordered spans) (hij : i ≤ j)
    (ha : spans[i]? = some a) (hb : spans[j]? = some b) : a.start ≤ b.start := by
  rcases Nat.lt_or_eq_of_le hij with hlt | rfl
  · have := h.apart hlt ha hb
    have := h.1 a (List.mem_of_getElem? ha)
    omega
  · rw [ha, Option.some.injEq] at hb
    rw [hb]

theorem holds_iff {spans : List Span} (h : Ordered spans) (offset : Int) :
    (LiteralIndex.mk spans.toArray).holds offset = true ↔
      ∃ span ∈ spans, (span.start : Int) ≤ offset ∧ offset < span.stop := by
  have hsort : ∀ (i j : Nat) (a b : Span), i ≤ j → spans.toArray[i]? = some a →
      spans.toArray[j]? = some b → a.start ≤ b.start := fun i j a b hij ha hb =>
    h.starts hij (by simpa using ha) (by simpa using hb)
  obtain ⟨h₁, h₂, h₃⟩ := @countStarted_spec _ offset 0 spans.toArray.size hsort (by omega)
    (fun i a hi ha => by rw [Array.getElem?_eq_none hi] at ha; simp at ha) (Nat.zero_le _)
    (Nat.le_refl _)
  unfold LiteralIndex.holds
  generalize LiteralIndex.countStarted spans.toArray offset 0 spans.toArray.size = n at h₁ h₂ h₃
  rw [List.size_toArray] at h₃
  constructor
  · intro h
    cases n with
    | zero => simp at h
    | succ k =>
      cases hk : spans[k]? with
      | none => simp [hk] at h
      | some span =>
        exact ⟨span, List.mem_of_getElem? hk, h₁ k span (Nat.lt_succ_self k) (by simpa using hk),
          by simpa [hk] using h⟩
  · rintro ⟨span, hmem, hstart, hstop⟩
    obtain ⟨i, hi⟩ := List.mem_iff_getElem?.mp hmem
    have hin : i < n := by
      by_contra hn
      have := h₂ i span (Nat.le_of_not_lt hn) (by simpa using hi)
      omega
    cases n with
    | zero => omega
    | succ k =>
      obtain ⟨b, hb⟩ : ∃ b, spans[k]? = some b := ⟨spans[k], List.getElem?_eq_getElem (by omega)⟩
      rcases Nat.lt_or_eq_of_le (Nat.le_of_lt_succ hin) with hlt | rfl
      · have := h.apart hlt hi hb
        have := h₁ k b (Nat.lt_succ_self k) (by simpa using hb)
        omega
      · simpa [hi] using hstop

end PackageInstaller.Manifest
