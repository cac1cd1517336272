import PackageInstaller.Proofs.PackageEdit
import PackageInstaller.Proofs.Pins

/-! All spellings of a URL are one package: to the check for a second declaration, to the lookup of a pinned name
and to the count of new pins. -/

namespace PackageInstaller

open Manifest Lockfile Repository

/-- Each URL of a list is respelled in another. -/
def RespelledUrls : List Text → List Text → Prop := List.Forall₂ Respells

/-- The pins of one list are those of another with their URLs respelled. -/
def RespelledPins : List Pin → List Pin → Prop :=
  List.Forall₂ fun pin pin' => Respells pin.url pin'.url ∧ pin.name = pin'.name

/-- Two URLs are one package to the program, whose files may have either of them and may spell the others in any
way. -/
structure OnePackage (v w : Text) : Prop where
  /-- A manifest refuses both of them or neither, also if the search in it fails. -/
  refused : ∀ t version version', Refused (addPackage t ⟨v, version⟩).outcome ↔ Refused (addPackage t ⟨w, version'⟩).outcome
  refused_respelled : ∀ t t' urls urls' version version', declaredUrls t = .ok urls → declaredUrls t' = .ok urls' →
    RespelledUrls urls urls' →
      (Refused (addPackage t ⟨v, version⟩).outcome ↔ Refused (addPackage t' ⟨w, version'⟩).outcome)
  declared : ∀ t urls version, declaredUrls t = .ok urls → v ∈ urls → Refused (addPackage t ⟨w, version⟩).outcome
  /-- A lockfile gives the same name for both or for neither, also if it cannot be read. -/
  named : ∀ d here path, (nameAt d here path v).outcome.toOption = (nameAt d here path w).outcome.toOption
  named_respelled : ∀ d d' here here' path path' pins pins', (pinsAt d here path false).outcome = .ok pins →
    (pinsAt d' here' path' false).outcome = .ok pins' → RespelledPins pins pins' →
      (nameAt d here path v).outcome.toOption = (nameAt d' here' path' w).outcome.toOption
  pinned : ∀ d here path pins, (pinsAt d here path false).outcome = .ok pins → v ∈ pins.map (·.url) →
    ∃ pin ∈ pins, pin.key = canonicalUrl v ∧ (nameAt d here path w).outcome = .ok pin.name
  counted : ∀ before before' after after' name name', RespelledPins before before' → RespelledPins after after' →
    countNew (⟨v, name⟩ :: before) after = countNew (⟨w, name'⟩ :: before') after' ∧
      countNew before (⟨v, name⟩ :: after) = countNew before' (⟨w, name'⟩ :: after')
  known : ∀ before after name, v ∈ before.map (·.url) →
    countNew before (⟨w, name⟩ :: after) = countNew before after

variable {u v w : Text} {pins pins' : List Pin}

lemma RespelledPins.keys_eq (h : RespelledPins pins pins') : keys pins = keys pins' := by
  have hkeys : pins.map Pin.key = pins'.map Pin.key := by
    induction h with
    | nil => rfl
    | cons hpin _ ih => rw [List.map_cons, List.map_cons, ih, Pin.key, Pin.key, hpin.1.canonicalUrl]
  rw [keys, keys, hkeys]

lemma RespelledPins.name_eq (h : RespelledPins pins pins') (hc : canonicalUrl v = canonicalUrl w) :
    (pinFor? pins v).map (·.name) = (pinFor? pins' w).map (·.name) := by
  induction h with
  | nil => rfl
  | @cons pin pin' pins pins' hpin _ ih =>
    have hkey : pin.key = pin'.key := hpin.1.canonicalUrl
    rw [pinFor?, pinFor?]
    by_cases hfound : pin.key = canonicalUrl v
    · rw [List.find?_cons_of_pos (by simpa using hfound), List.find?_cons_of_pos (by simpa [← hkey, ← hc] using hfound)]
      exact congrArg some hpin.2
    · rw [List.find?_cons_of_neg (by simpa using hfound), List.find?_cons_of_neg (by simpa [← hkey, ← hc] using hfound)]
      exact ih

lemma nameAt_toOption (d : Disk) (here : Place) (path : Path) (url : Text) :
    (nameAt d here path url).outcome.toOption =
      (pinsAt d here path false).outcome.toOption.bind fun pins => (pinFor? pins url).map (·.name) := by
  rw [nameAt, Attempt.bind_outcome]
  cases (pinsAt d here path false).outcome with
  | error e => rfl
  | ok pins =>
    simp only [Except.bind, Except.toOption, Option.bind_some]
    cases pinFor? pins url <;> rfl

lemma pinFor?_isSome (h : ∃ pin ∈ pins, pin.key = canonicalUrl v) :
    ∃ pin ∈ pins, pin.key = canonicalUrl v ∧ pinFor? pins v = some pin := by
  obtain ⟨pin, hpin, hkey⟩ := h
  have hsome : (pinFor? pins v).isSome = true := List.find?_isSome.mpr ⟨pin, hpin, by simpa using hkey⟩
  obtain ⟨found, hfound⟩ := Option.isSome_iff_exists.mp hsome
  exact ⟨found, List.mem_of_find?_eq_some hfound, by simpa using List.find?_some hfound, hfound⟩

lemma respelledPins_refl (pins : List Pin) : RespelledPins pins pins :=
  List.forall₂_same.mpr fun _ _ => ⟨.inl rfl, rfl⟩

lemma RespelledUrls.canonicalUrls_eq {urls urls' : List Text} (h : RespelledUrls urls urls') :
    urls.map canonicalUrl = urls'.map canonicalUrl := by
  induction h with
  | nil => rfl
  | cons hurl _ ih => rw [List.map_cons, List.map_cons, ih, hurl.canonicalUrl]

lemma onePackage (hc : canonicalUrl v = canonicalUrl w) : OnePackage v w where
  refused t version version' := by
    rw [refused_addPackage_iff, refused_addPackage_iff, hc]
  refused_respelled t t' urls urls' version version' ht ht' hurls := by
    rw [refused_iff_declared ht, refused_iff_declared ht', hurls.canonicalUrls_eq, hc]
  declared t urls version ht hv := by
    rw [refused_iff_declared ht, ← hc]
    exact List.mem_map_of_mem hv
  named d here path := by
    rw [nameAt_toOption, nameAt_toOption]
    congr 1
    funext pins
    exact (respelledPins_refl pins).name_eq hc
  named_respelled d d' here here' path path' pins pins' h h' hpins := by
    rw [nameAt_toOption, nameAt_toOption, h, h']
    exact hpins.name_eq hc
  pinned d here path pins h hv := by
    obtain ⟨pin, hpin, rfl⟩ := List.mem_map.mp hv
    obtain ⟨found, hmem, hkey, hfound⟩ := pinFor?_isSome ⟨pin, hpin, hc⟩
    have hname := nameAt_toOption d here path w
    rw [h, Except.toOption, Option.bind_some, hfound, Option.map_some] at hname
    exact ⟨found, hmem, hkey.trans hc.symm, toOption_eq_some.mp hname⟩
  counted before before' after after' name name' hbefore hafter := by
    have hkey : (⟨v, name⟩ : Pin).key = (⟨w, name'⟩ : Pin).key := hc
    simp only [countNew_eq_card, keys_cons, hkey, hbefore.keys_eq, hafter.keys_eq, and_self]
  known before after name hv := by
    have hmem : (⟨w, name⟩ : Pin).key ∈ keys before := by
      obtain ⟨pin, hpin, rfl⟩ := List.mem_map.mp hv
      exact List.mem_toFinset.mpr (List.mem_map.mpr ⟨pin, hpin, hc⟩)
    rw [countNew_eq_card, countNew_eq_card, keys_cons, Finset.insert_sdiff_of_mem _ hmem]

/-- All spellings of a bare URL have its canonical form, which is the URL in lower case, and are one package. -/
theorem spellings_one_package (hu : Bare u) (hv : Spells u v) (hw : Spells u w) :
    canonicalUrl v = Text.lower u ∧ canonicalUrl u = Text.lower u ∧ OnePackage v w := by
  have hv' := canonicalUrl_spelled hu hv
  exact ⟨hv', canonicalUrl_spelled hu (spells_self u), onePackage (hv'.trans (canonicalUrl_spelled hu hw).symm)⟩

theorem shouted_one_package :
    (Bare "https://github.com/vapor/console".toList ∧
      Spells "https://github.com/vapor/console".toList " https://GitHub.com/vapor/console.GIT//\n".toList ∧
      Spells "https://github.com/vapor/console".toList "HTTPS://GITHUB.COM/VAPOR/CONSOLE".toList) ∧
    OnePackage " https://GitHub.com/vapor/console.GIT//\n".toList "HTTPS://GITHUB.COM/VAPOR/CONSOLE".toList := by
  have hu : Bare "https://github.com/vapor/console".toList := ⟨by decide, by decide, by decide, by decide⟩
  have hv := @Spells.mk "https://github.com/vapor/console".toList [' '] "https://GitHub.com/vapor/console".toList
    ".GIT".toList ['/', '/'] ['\n'] (by decide) (by decide) (.inr (by decide)) (by simp) (by decide)
  have hw := @Spells.mk "https://github.com/vapor/console".toList [] "HTTPS://GITHUB.COM/VAPOR/CONSOLE".toList
    [] [] [] (by simp) (by decide) (.inl rfl) (by simp) (by simp)
  exact ⟨⟨hu, hv, hw⟩, (spellings_one_package hu hv hw).2.2⟩

end PackageInstaller
