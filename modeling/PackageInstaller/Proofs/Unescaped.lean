import PackageInstaller.Proofs.Bodies
import PackageInstaller.Proofs.Located

/-! What is read of a string, and how far that is the text it denotes. Every backslash is dropped with nothing put in its
place, so that an interpolation is read as its own source, and most escapes as the letter that stands for them. -/

namespace PackageInstaller.Manifest

open StringLiteral

variable {t t' v v' : Text} {i e : Nat} {span span' : Span} {args : ArgumentList} {item : Argument} {target : Target}
  {ts : List Target}

lemma valueAt?_denotes (h : skipLiteral? t i = .ok (some e)) (hq : QuotedAt t i) (hv : Denotes (t.slice i e) v) :
    valueAt? t ⟨i, e⟩ = some v ↔ ∀ c ∈ escaped (t.slice i e), denotesItself c = true := by
  obtain ⟨b, hslice, hb, -⟩ := valueAt?_body h hq
  have hhead : (t.slice i e).head? = some '"' := by rw [hslice]; rfl
  have hsingle : ¬['"', '"', '"'] <+: t.slice i e := fun hp => hq.2 (hp.trans (List.take_prefix _ _))
  rw [valueAt?]
  refine (decode?_denotes hv).trans ?_
  rw [Direct]
  simp only [hhead, hsingle, not_false_eq_true, true_and]

lemma valueAt?_inj (hl : Direct (t.slice span.start span.stop)) (hl' : Direct (t'.slice span'.start span'.stop))
    (hv : Denotes (t.slice span.start span.stop) v) (hv' : Denotes (t'.slice span'.start span'.stop) v') :
    valueAt? t span = valueAt? t' span' ↔ v = v' := by
  rw [valueAt?, valueAt?, (decode?_denotes hv).mpr hl, (decode?_denotes hv').mpr hl', Option.some.injEq]

lemma namingOf_quoted (hargs : targetArguments? t span = .ok (some args)) (hitem : args.find? nameLabel = some item)
    (h : skipLiteral? t item.value.start = .ok (some item.value.stop)) (hq : QuotedAt t item.value.start) :
    ∃ b, t.slice item.value.start item.value.stop = '"' :: (b ++ ['"']) ∧
      namingOf t span = .ok (((readBody b).map .named).getD .notLiteral) := by
  obtain ⟨b, hslice, -, hread⟩ := valueAt?_body h hq
  refine ⟨b, hslice, ?_⟩
  rw [namingOf, hargs]
  simp only [bind, Except.bind, Option.bind_some, hitem]
  rw [show valueAt? t item.value = readBody b from hread]
  cases readBody b <;> rfl

lemma namedDeclaration_of_mem (h : (locateTargets t).outcome = .ok ts) (ht : target ∈ ts) : NamedDeclaration t target := by
  obtain ⟨ps, found, rfl, hshown, rfl⟩ := locateTargets_eq_ok.mp h
  obtain ⟨calls, hd, hf⟩ := hshown.calls
  obtain ⟨s, hs, rfl⟩ := List.mem_map.mp ht
  obtain ⟨hmem, -⟩ := (locating_of_located hf).spec (hd.ahead hshown.lexed).inhabited
  obtain ⟨hcall, -, -, hname⟩ := hmem s hs
  exact hd.named_of_call hshown.lexed hcall hname

lemma NamedDeclaration.body (h : NamedDeclaration t target) : ∃ kind opener args item b,
    Opens t kind target.span.start opener ∧ splitArguments t opener = .ok args ∧ args.find? nameLabel = some item ∧
      t.slice item.value.start item.value.stop = '"' :: (b ++ ['"']) ∧ readBody b = some target.name := by
  obtain ⟨kind, opener, closer, args, item, -, hopens, -, -, hargs, hitem, hvalue⟩ := h
  obtain ⟨ps, hps⟩ := exists_between_value hargs (List.mem_of_find?_eq_some hitem)
  obtain ⟨hskip, hquoted⟩ := quotedAt_of_value hps hvalue
  obtain ⟨b, hslice, -, hread⟩ := valueAt?_body hskip hquoted
  exact ⟨kind, opener, args, item, b, hopens, hargs, hitem, hslice, hread.symm.trans hvalue⟩

/-- A string is read as its body without the backslashes, interpolations included, unless the body spreads over lines or an
interpolation holds a quote. That is the text it denotes exactly if only quotes, apostrophes and backslashes are escaped in
it, and strings of that kind are told apart. A name is read in the same way, and a target without one is not located. -/
theorem valueAt?_ordinary (t t' : Text) :
    (∀ i e, skipLiteral? t i = .ok (some e) → QuotedAt t i →
      (∃ b, t.slice i e = '"' :: (b ++ ['"']) ∧ Body b ∧ valueAt? t ⟨i, e⟩ = readBody b) ∧
        ∀ v, Denotes (t.slice i e) v →
          (valueAt? t ⟨i, e⟩ = some v ↔ ∀ c ∈ escaped (t.slice i e), denotesItself c = true)) ∧
    (∀ span span' v v', Direct (t.slice span.start span.stop) → Direct (t'.slice span'.start span'.stop) →
      Denotes (t.slice span.start span.stop) v → Denotes (t'.slice span'.start span'.stop) v' →
        (valueAt? t span = valueAt? t' span' ↔ v = v')) ∧
    (∀ span args item, targetArguments? t span = .ok (some args) → args.find? nameLabel = some item →
      skipLiteral? t item.value.start = .ok (some item.value.stop) → QuotedAt t item.value.start →
        ∃ b, t.slice item.value.start item.value.stop = '"' :: (b ++ ['"']) ∧
          namingOf t span = .ok (((readBody b).map .named).getD .notLiteral)) ∧
    ∀ ts, (locateTargets t).outcome = .ok ts → ∀ target ∈ ts, ∃ kind opener args item b,
      Opens t kind target.span.start opener ∧ splitArguments t opener = .ok args ∧ args.find? nameLabel = some item ∧
        t.slice item.value.start item.value.stop = '"' :: (b ++ ['"']) ∧ readBody b = some target.name := by
  refine ⟨?_, fun span span' v v' => valueAt?_inj, fun span args item => namingOf_quoted, ?_⟩
  · intro i e h hq
    obtain ⟨b, hslice, hb, hread⟩ := valueAt?_body h hq
    exact ⟨⟨b, hslice, hb, hread⟩, fun v => valueAt?_denotes h hq⟩
  · intro ts h target ht
    exact (namedDeclaration_of_mem h ht).body

def interpolatedName : Text := ".target(name: \"\\(x)\")".toList

def apostrophes : Text := "\"a\\'\", \"a'\"".toList

theorem valueAt?_ordinary_interpolated :
    (∃ b, interpolatedName.slice 14 20 = '"' :: (b ++ ['"']) ∧ valueAt? interpolatedName ⟨14, 20⟩ = readBody b) ∧
    valueAt? apostrophes ⟨0, 5⟩ = valueAt? apostrophes ⟨7, 11⟩ ∧
    (∃ b, namingOf interpolatedName ⟨0, 21⟩ = .ok (((readBody b).map .named).getD .notLiteral)) ∧
    ∃ target b, (locateTargets interpolatedName).outcome = .ok [target] ∧ readBody b = some target.name := by
  obtain ⟨hread, -, hnaming, hlocated⟩ := valueAt?_ordinary interpolatedName []
  obtain ⟨-, hinj, -⟩ := valueAt?_ordinary apostrophes apostrophes
  have hskip : skipLiteral? interpolatedName 14 = .ok (some 20) := rfl
  have hquoted : QuotedAt interpolatedName 14 := by decide +kernel
  have hargs : targetArguments? interpolatedName ⟨0, 21⟩ = .ok (some ⟨7, 20, [⟨some nameLabel, ⟨8, 20⟩, ⟨14, 20⟩, none⟩]⟩) :=
    rfl
  have hlocate : (locateTargets interpolatedName).outcome =
      .ok [⟨"(x)".toList, TargetKind.target.word, ⟨0, 21⟩⟩] := by decide +kernel
  obtain ⟨⟨b, hslice, -, hvalue⟩, -⟩ := hread _ _ hskip hquoted
  obtain ⟨b', -, hname⟩ := hnaming _ _ _ hargs rfl hskip hquoted
  obtain ⟨kind, opener, args, item, b'', -, -, -, -, hbody⟩ := hlocated _ hlocate _ (List.mem_singleton_self _)
  refine ⟨⟨b, hslice, hvalue⟩, ?_, ⟨b', hname⟩, _, b'', hlocate, hbody⟩
  refine (hinj _ _ ['a', '\''] ['a', '\''] (by decide) (by decide) ?_ ?_).mpr rfl
  · exact @Denotes.line _ _ 0 ['a', '\\', '\''] rfl (@Contents.append 0 false ['a'] _ _ (by decide) (.escape (.itself rfl) .nil))
  · exact @Denotes.line _ _ 0 ['a', '\''] rfl (@Contents.append 0 false ['a', '\''] [] [] (by decide) .nil)

/-- An interpolation is read as its source. -/
theorem not_valueAt?_denoted : ¬∀ t i e, skipLiteral? t i = .ok (some e) → QuotedAt t i →
    ('(' ∈ escaped (t.slice i e) → valueAt? t ⟨i, e⟩ = none) ∧
      ('(' ∉ escaped (t.slice i e) → ∀ v, Denotes (t.slice i e) v → valueAt? t ⟨i, e⟩ = some v) := by
  intro h
  obtain ⟨hnone, -⟩ := h "\"\\(x)\"".toList 0 6 rfl (by decide +kernel)
  have hread : valueAt? "\"\\(x)\"".toList ⟨0, 6⟩ = some "(x)".toList := by decide +kernel
  rw [hread] at hnone
  exact absurd (hnone (by decide +kernel)) (by simp)

end PackageInstaller.Manifest
