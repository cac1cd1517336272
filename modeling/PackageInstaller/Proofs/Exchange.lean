import PackageInstaller.Proofs.Splice

/-! What the readers find in a group when pieces deep inside of it are exchanged: the same names and the
same URLs, and the array that its label names. -/

namespace PackageInstaller.Manifest

namespace Splice

variable {e : Splice} {b b' v v' l r : List Piece} {cs cs' : List (List Piece)}

lemma Deep.on_labelled {cs cs' : List (List Piece)} (h : List.Forall₂ e.Deep cs cs')
    (hl : ∀ c ∈ cs, Lexed c) (label : Text) :
    Option.Rel e.Deep (labelled label cs) (labelled label cs') := by
  induction h with
  | nil => exact .none
  | @cons c c' cs cs' hc _ ih =>
    have ih := ih fun d hd => hl d (List.mem_cons_of_mem _ hd)
    rw [labelled, labelled, List.find?_cons, List.find?_cons,
      (hc.on_value (hl c List.mem_cons_self)).1]
    split
    · exact .some hc
    · exact ih

lemma Deep.on_text {cs cs' : List (List Piece)} (h : List.Forall₂ e.Deep cs cs')
    (hl : ∀ c ∈ cs, Lexed c) (label : Text) :
    (labelled label cs').map (fun c => stringOf (valueOf c)) =
      (labelled label cs).map fun c => stringOf (valueOf c) := by
  have hrel := Deep.on_labelled h hl label
  have hmem : ∀ c, labelled label cs = some c → Lexed c := fun c hc => hl c (List.mem_of_find?_eq_some hc)
  generalize labelled label cs = c at hrel hmem ⊢
  generalize labelled label cs' = c' at hrel ⊢
  cases hrel with
  | none => rfl
  | some hc => rw [Option.map_some, Option.map_some, (hc.on_value (hmem _ rfl)).2.on_string]

lemma namingIn_eq (cs : List (List Piece)) : namingIn cs =
    match (labelled nameLabel cs).map fun c => stringOf (valueOf c) with
    | none => .nameless
    | some none => .notLiteral
    | some (some name) => .named name := by
  rw [namingIn]
  cases labelled nameLabel cs with
  | none => rfl
  | some c =>
    simp only [Option.map_some]
    cases stringOf (valueOf c) <;> rfl

/-- A declaration that the exchange does not touch from outside keeps its name. -/
theorem Deep.on_naming (he : e.Even) (hl : Lexed b) (hb : Balanced b) (h : e.Deep b b') :
    naming b' = naming b := by
  have hrel := h.on_contents he hb
  have hmem : ∀ cs, contents b = some cs → ∀ c ∈ cs, Lexed c :=
    fun cs hcs c hc => hl.part (mem_contents hb hcs c hc).1
  rw [naming, naming]
  generalize contents b = cs at hrel hmem ⊢
  generalize contents b' = cs' at hrel ⊢
  cases hrel with
  | none => rfl
  | some hcs =>
    have ht := Deep.on_text hcs (hmem _ rfl) nameLabel
    rw [Option.map_some, Option.map_some, namingIn_eq, namingIn_eq, ht]

/-- The array that its label names is exchanged in or left alone. -/
lemma Deep.on_dependencyBody (he : e.Even) (h : List.Forall₂ e.Deep cs cs')
    (hl : ∀ c ∈ cs, Lexed c) (hb : ∀ c ∈ cs, Balanced c) :
    (dependencyBody? cs = none ∧ dependencyBody? cs' = none) ∨ ∃ d d', dependencyBody? cs = some d ∧
      dependencyBody? cs' = some d' ∧ Balanced d ∧ e.Within '[' ']' d d' := by
  have hrel := Deep.on_labelled h hl dependenciesLabel
  have hmem : ∀ c, labelled dependenciesLabel cs = some c → c ∈ cs :=
    fun c hc => List.mem_of_find?_eq_some hc
  rw [dependencyBody?, dependencyBody?]
  generalize labelled dependenciesLabel cs = c at hrel hmem ⊢
  generalize labelled dependenciesLabel cs' = c' at hrel ⊢
  cases hrel with
  | none => exact .inl ⟨rfl, rfl⟩
  | some hc =>
    have hm := hmem _ rfl
    exact (hc.on_value (hl _ hm)).2.on_array he (valueOf_balanced (hl _ hm) (hb _ hm))

lemma Deep.on_urlIn (h : List.Forall₂ e.Deep cs cs') (hl : ∀ c ∈ cs, Lexed c) : urlIn cs' = urlIn cs := by
  have hurl := Deep.on_text h hl urlLabel
  have hpath := Deep.on_text h hl pathLabel
  have hn : ∀ ds : List (List Piece), urlIn ds =
      (((labelled urlLabel ds).map fun c => stringOf (valueOf c)).or
        ((labelled pathLabel ds).map fun c => stringOf (valueOf c))).join := by
    intro ds
    rw [urlIn]
    cases labelled urlLabel ds with
    | some c => rfl
    | none => cases labelled pathLabel ds <;> rfl
  rw [hn, hn, hurl, hpath]

lemma Deep.on_urlOf (he : e.Even) (hh : e.Host '[' ']' l r) (hl : Lexed v) (hb : Balanced v)
    (h : e.Deep v v') : urlOf v' = urlOf v := by
  rcases (h.on_declaration he hl hb).2 with ⟨hd, hd'⟩ | ⟨d, d', hd, hd', hdb, hdv, hin⟩
  · rw [urlOf, urlOf, hd, hd']
  · rw [urlOf, urlOf, hd, hd']
    have hdeep : e.Deep d d' := by
      refine (hin.cases he hh rfl hdb).resolve_right fun hc => ?_
      exact absurd hc.1 (by decide)
    have hrel := hdeep.on_contents he hdb
    have hmem : ∀ cs, contents d = some cs → ∀ c ∈ cs, Lexed c :=
      fun cs hcs c hc => (hl.part hdv).part (mem_contents hdb hcs c hc).1
    simp only
    generalize contents d = cs at hrel hmem ⊢
    generalize contents d' = cs' at hrel ⊢
    cases hrel with
    | none => rfl
    | some hcs => rw [Option.map_some, Option.map_some, Deep.on_urlIn hcs (hmem _ rfl)]

lemma Deep.on_urlsIn (he : e.Even) (hh : e.Host '[' ']' l r) (h : List.Forall₂ e.Deep cs cs')
    (hl : ∀ c ∈ cs, Lexed c) (hb : ∀ c ∈ cs, Balanced c) : urlsIn cs' = urlsIn cs := by
  induction h with
  | nil => rfl
  | @cons c c' cs cs' hc _ ih =>
    have hlc := hl c List.mem_cons_self
    have hv := (hc.on_value hlc).2
    have hlv : Lexed (valueOf c) := hlc.part (valueOf_suffix hlc).isInfix
    have hbv := valueOf_balanced hlc (hb c List.mem_cons_self)
    rw [urlsIn, urlsIn, (hv.on_declaration he hlv hbv).1, hv.on_urlOf he hh hlv hbv,
      ih (fun d hd => hl d (List.mem_cons_of_mem _ hd)) fun d hd => hb d (List.mem_cons_of_mem _ hd)]

end Splice

end PackageInstaller.Manifest
