import RoleResolution.Proofs.Registry.Place
import RoleResolution.Proofs.Registry.Reference
import RoleResolution.Proofs.Registry.Supply

/-!
# Flaws of supplied definitions

A flaw is a reference to a kind without definition, a kind without definition, or the name of a
field that a schema lacks. Every flaw stands at a place: first comes its sort, then the index of
the kind that it concerns, then the place of the rule there, and last the side of a comparison,
the required one before the provided one. Over a lawful kind set an arrangement of definitions of
different kinds fails with the flaw at the first place and succeeds when there is none.
-/

namespace RoleResolution

variable {κ : Type} {K : KindSet κ} {definitions : List (RoleDefinition κ)}

/-- A kind has a definition among the given ones. -/
def Defined (definitions : List (RoleDefinition κ)) (kind : κ) : Prop :=
  ∃ d ∈ definitions, d.kind = kind

/-- The flaws of definitions, with their places and the errors that report them. -/
inductive Flaw (K : KindSet κ) (definitions : List (RoleDefinition κ)) :
    List Nat → BuildError κ → Prop where
  /-- A rule refers to a kind without definition. -/
  | dangling {d : RoleDefinition κ} {family : RuleFamily} {position : Nat} {kind : κ}
      (owner : d ∈ definitions) (refers : d.RefersAt family position kind)
      (undefined : ¬ Defined definitions kind) :
      Flaw K definitions [0, K.index d.kind, family.rank, position]
        (.danglingKind d.kind family kind)
  /-- A kind has no definition. -/
  | missing {kind : κ} (undefined : ¬ Defined definitions kind) :
      Flaw K definitions [1, K.index kind] (.missingDefinition kind)
  /-- The schema of the owner of a comparison lacks the required field. -/
  | required {d : RoleDefinition κ} {place : List Nat} {pair : AttributeRule κ}
      (owner : d ∈ definitions) (compares : d.ComparesAt place pair)
      (lacks : d.Lacks pair.requiredField) :
      Flaw K definitions (2 :: K.index d.kind :: (place ++ [0]))
        (.unknownField d.kind d.kind pair.requiredField)
  /-- The schema of the kind that a comparison applies to lacks the provided field. -/
  | provided {d e : RoleDefinition κ} {place : List Nat} {pair : AttributeRule κ}
      (owner : d ∈ definitions) (compares : d.ComparesAt place pair)
      (provider : e ∈ definitions) (kind : e.kind = pair.providedKind)
      (lacks : e.Lacks pair.providedField) :
      Flaw K definitions (2 :: K.index d.kind :: (place ++ [1]))
        (.unknownField d.kind pair.providedKind pair.providedField)

/-! ### References in order -/

/-- The families in the order of their ranks. -/
private def families : List RuleFamily :=
  [.unconditionalPass, .attributeRule, .delegatedPredicate, .conversion]

private theorem getElem?_families {i : Nat} {family : RuleFamily} :
    families[i]? = some family ↔ family.rank = i := by
  rcases i with _ | _ | _ | _ | i <;> cases family <;> simp [families, RuleFamily.rank]

namespace RoleDefinition

variable (d : RoleDefinition κ)

/-- The kinds that the rules of a family refer to. -/
private def kindsOf : RuleFamily → List κ
  | .unconditionalPass => d.passes
  | .attributeRule => d.attributeRules.map (·.providedKind)
  | .delegatedPredicate => d.delegated.map (·.providedKind)
  | .conversion => d.conversions.map (·.targetKind)

private theorem getElem?_kindsOf {family : RuleFamily} {i : Nat} {kind : κ} :
    (d.kindsOf family)[i]? = some kind ↔ d.RefersAt family i kind := by
  cases family <;> simp [kindsOf, RefersAt]

private theorem references_eq :
    d.references = families.flatMap fun family ↦ (d.kindsOf family).map (family, ·) := by
  simp [references, families, kindsOf, Function.comp_def]

/-- The first reference to a kind with a property is the first by family and position. -/
theorem findsFirst_references (p : κ → Bool) :
    FindsFirst (fun place reference ↦ ∃ position, place = [reference.1.rank, position] ∧
      d.RefersAt reference.1 position reference.2 ∧ p reference.2 = true)
      (d.references.find? fun reference ↦ p reference.2) := by
  rw [references_eq, List.find?_flatMap]
  apply (FindsFirst.elements fun family _ ↦ FindsFirst.of_find? _ _).congr
  rintro place ⟨family, kind⟩
  simp only [List.getElem?_map, Option.map_eq_some_iff, getElem?_kindsOf, Prod.mk.injEq]
  constructor
  · rintro ⟨position, rfl, hr, hk⟩
    exact ⟨family.rank, family, [position], rfl, getElem?_families.mpr rfl, position, rfl,
      ⟨kind, hr, rfl, rfl⟩, hk⟩
  · rintro ⟨_, _, _, rfl, hi, position, rfl, ⟨_, hr, rfl, rfl⟩, hk⟩
    exact ⟨position, by rw [getElem?_families.mp hi], hr, hk⟩

/-- A rule refers to one kind. -/
theorem RefersAt.unique {d : RoleDefinition κ} {family : RuleFamily} {position : Nat}
    {kind kind' : κ} (h : d.RefersAt family position kind) (h' : d.RefersAt family position kind') :
    kind = kind' := by
  rw [← getElem?_kindsOf] at h h'
  exact Option.some.inj (h.symm.trans h')

/-! ### Comparisons in order -/

/-- One comparison is made at a place. -/
theorem ComparesAt.unique {d : RoleDefinition κ} {place : List Nat} {pair pair' : AttributeRule κ}
    (h : d.ComparesAt place pair) (h' : d.ComparesAt place pair') : pair = pair' := by
  cases h with
  | rule declared =>
    cases h' with
    | rule declared' => exact Option.some.inj (declared.symm.trans declared')
  | guard declared guarded =>
    cases h' with
    | guard declared' guarded' =>
      cases declared.symm.trans declared'
      cases guarded.symm.trans guarded'
      rfl

section AtComparison

variable {ε : Type} {Stands : AttributeRule κ → List Nat → ε → Prop}
  {f : AttributeRule κ → Option ε}

/-- A thing stands at a comparison, at the place of the comparison followed by a place there. -/
def AtComparison (Stands : AttributeRule κ → List Nat → ε → Prop) (place : List Nat) (e : ε) :
    Prop :=
  ∃ front pair back, place = front ++ back ∧ d.ComparesAt front pair ∧ Stands pair back e

private theorem findsFirst_attributeRules (h : ∀ pair, FindsFirst (Stands pair) (f pair)) :
    FindsFirst (fun rest e ↦ d.AtComparison Stands (0 :: rest) e)
      (d.attributeRules.findSome? f) := by
  apply (FindsFirst.elements fun pair _ ↦ h pair).congr
  intro place e
  constructor
  · rintro ⟨_, pair, back, hp, compares, hs⟩
    cases compares with
    | rule declared =>
      cases hp
      exact ⟨_, pair, back, rfl, declared, hs⟩
    | guard => cases hp
  · rintro ⟨i, pair, back, rfl, declared, hs⟩
    exact ⟨[0, i], pair, back, rfl, .rule declared, hs⟩

private theorem findsFirst_guards (h : ∀ pair, FindsFirst (Stands pair) (f pair)) :
    FindsFirst (fun rest e ↦ d.AtComparison Stands (1 :: rest) e)
      (d.delegated.findSome? fun rule ↦ rule.guards.findSome? fun guard ↦
        f ⟨guard.providedField, guard.requiredField, rule.providedKind⟩) := by
  apply (FindsFirst.elements fun rule _ ↦ FindsFirst.elements fun guard _ ↦ h _).congr
  intro place e
  constructor
  · rintro ⟨_, pair, back, hp, compares, hs⟩
    cases compares with
    | rule => cases hp
    | guard declared guarded =>
      cases hp
      exact ⟨_, _, _, rfl, declared, _, _, back, rfl, guarded, hs⟩
  · rintro ⟨i, rule, _, rfl, declared, j, guard, back, rfl, guarded, hs⟩
    exact ⟨[1, i, j], _, back, rfl, .guard declared guarded, hs⟩

private theorem or_eq_findSome? (a b : Option ε) : a.or b = [a, b].findSome? id := by
  cases a <;> cases b <;> rfl

/-- A search through the comparisons finds the first thing by place when the search of every
comparison does. -/
theorem findsFirst_comparedFields (h : ∀ pair, FindsFirst (Stands pair) (f pair)) :
    FindsFirst (d.AtComparison Stands) ((Registry.comparedFields d).findSome? f) := by
  unfold Registry.comparedFields
  rw [List.findSome?_append, findSome?_flatMap, or_eq_findSome?]
  simp only [List.findSome?_map]
  apply FindsFirst.of_findSome?
  · rintro place e ⟨_, pair, back, rfl, compares, -⟩
    cases compares with
    | rule => exact ⟨0, _, rfl, Nat.zero_lt_two⟩
    | guard => exact ⟨1, _, rfl, Nat.one_lt_two⟩
  · intro i stage hi _
    rcases i with _ | _ | i
    · cases hi
      exact d.findsFirst_attributeRules h
    · cases hi
      exact d.findsFirst_guards h
    · cases hi

end AtComparison
end RoleDefinition

/-! ### Flaws by place -/

namespace Flaw

variable {place place' : List Nat} {e e' : BuildError κ}

/-- A flaw of the first sort is a reference to a kind without definition. -/
theorem dangling_iff : Flaw K definitions (0 :: place) e ↔
    ∃ d ∈ definitions, ∃ family position kind, place = [K.index d.kind, family.rank, position] ∧
      d.RefersAt family position kind ∧ ¬ Defined definitions kind ∧
      e = .danglingKind d.kind family kind := by
  constructor
  · intro h
    cases h with
    | dangling owner refers undefined =>
      exact ⟨_, owner, _, _, _, rfl, refers, undefined, rfl⟩
  · rintro ⟨d, owner, family, position, kind, rfl, refers, undefined, rfl⟩
    exact .dangling owner refers undefined

/-- A flaw of the second sort is a kind without definition. -/
theorem missing_iff : Flaw K definitions (1 :: place) e ↔
    ∃ kind, place = [K.index kind] ∧ ¬ Defined definitions kind ∧ e = .missingDefinition kind := by
  constructor
  · intro h
    cases h with
    | missing undefined => exact ⟨_, rfl, undefined, rfl⟩
  · rintro ⟨kind, rfl, undefined, rfl⟩
    exact .missing undefined

/-- A flaw of the third sort is a side of a comparison that a schema lacks. -/
theorem undeclared_iff : Flaw K definitions (2 :: place) e ↔
    ∃ d ∈ definitions, ∃ front pair back, place = K.index d.kind :: (front ++ back) ∧
      d.ComparesAt front pair ∧
      (back = [0] ∧ d.Lacks pair.requiredField ∧
          e = .unknownField d.kind d.kind pair.requiredField ∨
        back = [1] ∧ ∃ provider ∈ definitions, provider.kind = pair.providedKind ∧
          provider.Lacks pair.providedField ∧
          e = .unknownField d.kind pair.providedKind pair.providedField) := by
  constructor
  · intro h
    cases h with
    | required owner compares lacks =>
      exact ⟨_, owner, _, _, _, rfl, compares, .inl ⟨rfl, lacks, rfl⟩⟩
    | provided owner compares provider kind lacks =>
      exact ⟨_, owner, _, _, _, rfl, compares, .inr ⟨rfl, _, provider, kind, lacks, rfl⟩⟩
  · rintro ⟨d, owner, front, pair, back, rfl, compares,
      ⟨rfl, lacks, rfl⟩ | ⟨rfl, f, provider, kind, lacks, rfl⟩⟩
    · exact .required owner compares lacks
    · exact .provided owner compares provider kind lacks

/-- There is no other sort but the third. -/
theorem sort_lt (h : Flaw K definitions place e) :
    ∃ sort rest, place = sort :: rest ∧ sort < 3 := by
  cases h with
  | dangling => exact ⟨0, _, rfl, by decide⟩
  | missing => exact ⟨1, _, rfl, by decide⟩
  | required => exact ⟨2, _, rfl, by decide⟩
  | provided => exact ⟨2, _, rfl, by decide⟩

private theorem eq_of_index (hK : K.Lawful) (hn : (definitions.map (·.kind)).Nodup)
    {d d' : RoleDefinition κ} (hd : d ∈ definitions) (hd' : d' ∈ definitions)
    (hi : K.index d.kind = K.index d'.kind) : d = d' :=
  List.inj_on_of_nodup_map hn hd hd' (hK.index_inj hi)

private theorem rank_inj {family family' : RuleFamily} (h : family.rank = family'.rank) :
    family = family' := by
  cases family <;> cases family' <;> first | rfl | cases h

/-- Two different flaws never stand at one place. -/
theorem unique (hK : K.Lawful) (hn : (definitions.map (·.kind)).Nodup)
    (h : Flaw K definitions place e) (h' : Flaw K definitions place e') : e = e' := by
  generalize hp : place = place' at h'
  cases h with
  | dangling owner refers undefined =>
    cases h' with
    | dangling owner' refers' undefined' =>
      simp only [List.cons.injEq, true_and, and_true] at hp
      obtain ⟨hi, hf, rfl⟩ := hp
      cases eq_of_index hK hn owner owner' hi
      cases rank_inj hf
      rw [refers.unique refers']
    | missing => cases hp
    | required => cases hp
    | provided => cases hp
  | missing undefined =>
    cases h' with
    | dangling => cases hp
    | missing undefined' =>
      simp only [List.cons.injEq, true_and, and_true] at hp
      rw [hK.index_inj hp]
    | required => cases hp
    | provided => cases hp
  | required owner compares lacks =>
    cases h' with
    | dangling => cases hp
    | missing => cases hp
    | required owner' compares' lacks' =>
      simp only [List.cons.injEq, true_and] at hp
      obtain ⟨hi, ha⟩ := hp
      cases eq_of_index hK hn owner owner' hi
      obtain ⟨rfl, -⟩ := List.append_inj' ha rfl
      rw [compares.unique compares']
    | provided =>
      simp only [List.cons.injEq, true_and] at hp
      obtain ⟨-, hs⟩ := List.append_inj' hp.2 rfl
      cases hs
  | provided owner compares provider kind lacks =>
    cases h' with
    | dangling => cases hp
    | missing => cases hp
    | required =>
      simp only [List.cons.injEq, true_and] at hp
      obtain ⟨-, hs⟩ := List.append_inj' hp.2 rfl
      cases hs
    | provided owner' compares' provider' kind' lacks' =>
      simp only [List.cons.injEq, true_and] at hp
      obtain ⟨hi, ha⟩ := hp
      cases eq_of_index hK hn owner owner' hi
      obtain ⟨rfl, -⟩ := List.append_inj' ha rfl
      rw [compares.unique compares']

end Flaw
end RoleResolution
