import Mathlib.Data.String.Basic
import Mathlib.Order.Bounds.Basic
import RoleResolution.Proofs.Registry.Arrangement
import RoleResolution.Proofs.Registry.Reference

/-!
# Roles that fit their schemas

A registry makes a role when the fields of the payload are exactly the ones that the schema of the
kind declares, and says otherwise which field is the first to be missing or undeclared. A registry
that was built compares declared fields only. So between roles that it made, over kinds with
schemas, no attribute rule and no guard ever lacks a field: it fails because the values differ.
-/

namespace RoleResolution

variable {κ : Type} {K : KindSet κ}

/-- The fields of a payload are the ones that a definition declares, if it declares any. -/
def RoleDefinition.Fits (d : RoleDefinition κ) (payload : Payload) : Prop :=
  ∀ schema, d.schema = some schema → ∀ field, field ∈ payload.names ↔ field ∈ schema.names

/-- How the fields of a payload differ from the declared ones, at the least field: one that is
missing, or, when none is missing, one that is undeclared. -/
inductive RoleDefinition.Misfit (d : RoleDefinition κ) (payload : Payload) :
    SchemaError κ → Prop where
  | missing {schema : FieldSet} {field : String} (declared : d.schema = some schema)
      (least : IsLeast {name | name ∈ schema.names ∧ name ∉ payload.names} field) :
      Misfit d payload (.missingField d.kind field)
  | undeclared {schema : FieldSet} {field : String} (declared : d.schema = some schema)
      (complete : ∀ name ∈ schema.names, name ∈ payload.names)
      (least : IsLeast {name | name ∈ payload.names ∧ name ∉ schema.names} field) :
      Misfit d payload (.undeclaredField d.kind field)

/-! ### Schemas and payloads -/

/-- The names of a field map strictly increase. -/
theorem FieldMap.pairwise_names {α : Type} (m : FieldMap α) : m.names.Pairwise (· < ·) :=
  List.pairwise_map.mpr m.sorted

private theorem isLeast_of_find? {names : List String} (h : names.Pairwise (· < ·))
    {p : String → Bool} {field : String} (hf : names.find? p = some field) :
    IsLeast {name | name ∈ names ∧ p name = true} field := by
  obtain ⟨hp, before, after, rfl, hbefore⟩ := List.find?_eq_some_iff_append.mp hf
  refine ⟨⟨List.mem_append_right before List.mem_cons_self, hp⟩, ?_⟩
  rintro name ⟨hm, hname⟩
  rcases List.mem_append.mp hm with hm | hm
  · have hfalse := hbefore name hm
    simp [hname] at hfalse
  · rcases List.mem_cons.mp hm with rfl | hm
    · exact le_refl name
    · exact le_of_lt ((List.pairwise_cons.mp (List.pairwise_append.mp h).2.1).1 name hm)

/-- A search through increasing names finds the least of those that it is for. -/
theorem find?_eq_some_iff_isLeast {names : List String} (h : names.Pairwise (· < ·))
    {p : String → Bool} {field : String} :
    names.find? p = some field ↔ IsLeast {name | name ∈ names ∧ p name = true} field := by
  constructor
  · exact isLeast_of_find? h
  · intro hleast
    cases hf : names.find? p with
    | none => exact absurd hleast.1.2 (List.find?_eq_none.mp hf field hleast.1.1)
    | some other => rw [(isLeast_of_find? h hf).unique hleast]

/-- The least field of a map that another map does not have is found. -/
private theorem find?_names_iff {α β : Type} (m : FieldMap α) (n : FieldMap β) {field : String} :
    (m.names.find? fun name ↦ !n.contains name) = some field ↔
      IsLeast {name | name ∈ m.names ∧ name ∉ n.names} field := by
  rw [find?_eq_some_iff_isLeast m.pairwise_names]
  simp [← FieldMap.contains_iff]

private theorem find?_names_none_iff {α β : Type} (m : FieldMap α) (n : FieldMap β) :
    (m.names.find? fun name ↦ !n.contains name) = none ↔ ∀ name ∈ m.names, name ∈ n.names := by
  simp [List.find?_eq_none, ← FieldMap.contains_iff]

/-- The schema of a definition has no objection to a payload exactly when the payload fits. -/
theorem RoleDefinition.fits_iff {d : RoleDefinition κ} {payload : Payload} :
    (d.schema.bind fun schema ↦ schemaError? schema d.kind payload) = none ↔ d.Fits payload := by
  unfold Fits
  cases d.schema with
  | none => simp
  | some schema =>
    have hmissing := find?_names_none_iff schema payload.fields
    have hextra := find?_names_none_iff payload.fields schema
    simp only [Option.bind_some, Option.some.injEq, forall_eq']
    unfold schemaError?
    constructor
    · intro h
      split at h
      · cases h
      · next hm =>
        have hcomplete := hmissing.mp hm
        have hdeclared := hextra.mp (Option.map_eq_none_iff.mp h)
        exact fun field ↦ ⟨hdeclared field, hcomplete field⟩
    · intro h
      have hm : (schema.names.find? fun field ↦ !payload.contains field) = none :=
        hmissing.mpr fun field ↦ (h field).mpr
      rw [hm]
      exact Option.map_eq_none_iff.mpr (hextra.mpr fun field ↦ (h field).mp)

/-- The objection to a payload is the way in which it does not fit. -/
theorem RoleDefinition.misfit_iff {d : RoleDefinition κ} {payload : Payload} {e : SchemaError κ} :
    (d.schema.bind fun schema ↦ schemaError? schema d.kind payload) = some e ↔
      d.Misfit payload e := by
  constructor
  · intro h
    obtain ⟨schema, hs, h⟩ := Option.bind_eq_some_iff.mp h
    unfold schemaError? at h
    split at h
    · next field hm =>
      cases h
      exact .missing hs ((find?_names_iff schema payload.fields).mp hm)
    · next hm =>
      obtain ⟨field, hf, rfl⟩ := Option.map_eq_some_iff.mp h
      exact .undeclared hs ((find?_names_none_iff schema payload.fields).mp hm)
        ((find?_names_iff payload.fields schema).mp hf)
  · intro h
    cases h with
    | @missing schema field declared least =>
      have hm : (schema.names.find? fun name ↦ !payload.contains name) = some field :=
        (find?_names_iff schema payload.fields).mpr least
      rw [declared, Option.bind_some, schemaError?, hm]
    | @undeclared schema field declared complete least =>
      have hm : (schema.names.find? fun name ↦ !payload.contains name) = none :=
        (find?_names_none_iff schema payload.fields).mpr complete
      have hf : (payload.names.find? fun name ↦ !schema.contains name) = some field :=
        (find?_names_iff payload.fields schema).mpr least
      rw [declared, Option.bind_some, schemaError?, hm]
      dsimp only
      rw [hf, Option.map_some]

/-! ### Compared fields are declared -/

namespace Registry

/-- Compared fields that pass the check are declared on both sides. -/
theorem declares_of_checkFields {arranged : List (RoleDefinition κ)}
    {pairs : List (RoleDefinition κ × AttributeRule κ)}
    (h : checkFields K arranged pairs = .ok ()) {owner : RoleDefinition κ} {pair : AttributeRule κ}
    (hm : (owner, pair) ∈ pairs) :
    owner.declares pair.requiredField = true ∧
      ∃ d, arranged[K.index pair.providedKind]? = some d ∧
        d.declares pair.providedField = true := by
  induction pairs with
  | nil => cases hm
  | cons entry rest ih =>
    obtain ⟨owner', pair'⟩ := entry
    unfold checkFields at h
    split at h
    · next hrequired =>
      split at h
      · cases h
      · next d hd =>
        split at h
        · next hprovided =>
          rcases List.mem_cons.mp hm with he | hm
          · cases he
            exact ⟨hrequired, d, hd, hprovided⟩
          · exact ih h hm
        · cases h
    · cases h

/-- The attribute rules of a definition are compared. -/
theorem mem_comparedFields_of_rule {d : RoleDefinition κ} {rule : AttributeRule κ}
    (h : rule ∈ d.attributeRules) : rule ∈ comparedFields d :=
  List.mem_append_left _ h

/-- The guards of a definition are compared, for the kind of their predicate. -/
theorem mem_comparedFields_of_guard {d : RoleDefinition κ} {rule : DelegatedPredicate κ}
    (h : rule ∈ d.delegated) {guard : GuardKey} (hg : guard ∈ rule.guards) :
    ⟨guard.providedField, guard.requiredField, rule.providedKind⟩ ∈ comparedFields d :=
  List.mem_append_right _ (List.mem_flatMap.mpr ⟨rule, h, List.mem_map.mpr ⟨guard, hg, rfl⟩⟩)

variable [DecidableEq κ]

/-- A registry that was built compares fields only that the schemas of both kinds declare. -/
theorem declares_of_build {b : RegistryBuilder κ} {R : Registry K} (hb : (b.build K).1 = .ok R)
    {kind : κ} {d : RoleDefinition κ} (hd : R.lookup kind = .ok d) {pair : AttributeRule κ}
    (hp : pair ∈ comparedFields d) :
    d.declares pair.requiredField = true ∧
      ∃ e, R.lookup pair.providedKind = .ok e ∧ e.declares pair.providedField = true := by
  obtain ⟨-, -, -, -, hfields, -⟩ := arrange_ok (build_ok hb).1
  have hm : (d, pair) ∈ R.definitions.flatMap fun d ↦ (comparedFields d).map (d, ·) :=
    List.mem_flatMap.mpr ⟨d, mem_of_lookup hd, List.mem_map.mpr ⟨pair, hp, rfl⟩⟩
  obtain ⟨hrequired, e, he, hprovided⟩ := declares_of_checkFields hfields hm
  exact ⟨hrequired, e, by simp only [lookup, he], hprovided⟩

end Registry

/-! ### Roles that a registry makes -/

/-- A payload that fits has every field that a schema declares. -/
theorem RoleDefinition.Fits.mem_names {d : RoleDefinition κ} {payload : Payload}
    (h : d.Fits payload) (hs : d.schema ≠ none) {field : String} (hf : d.declares field = true) :
    field ∈ payload.names := by
  obtain ⟨schema, hs⟩ := Option.ne_none_iff_exists'.mp hs
  unfold declares at hf
  rw [hs] at hf
  exact (h schema hs field).mpr (FieldMap.contains_iff.mp hf)

/-- Fields that are present match exactly when their values are equal. -/
theorem Payload.fieldMatches_of_mem {p q : Payload} {field other : String}
    (hp : field ∈ p.names) (hq : other ∈ q.names) :
    ∃ a b, p.get? field = some a ∧ q.get? other = some b ∧
      p.fieldMatches field q other = (a == b) := by
  obtain ⟨a, ha⟩ := Option.isSome_iff_exists.mp (FieldMap.contains_iff.mpr hp)
  obtain ⟨b, hb⟩ := Option.isSome_iff_exists.mp (FieldMap.contains_iff.mpr hq)
  have ha : p.get? field = some a := ha
  have hb : q.get? other = some b := hb
  exact ⟨a, b, ha, hb, by rw [fieldMatches, ha, hb]⟩

namespace Registry

/-- A role is the result of making one. -/
def Makes (R : Registry K) (role : Role κ) : Prop :=
  ∃ kind payload, (R.role kind payload).1 = .ok role

variable {R : Registry K} {kind : κ} {payload : Payload} {d : RoleDefinition κ}

/-- A role is made of exactly the payloads that fit, and has the payload unchanged. -/
theorem role_ok_iff (hd : R.lookup kind = .ok d) (hk : d.kind = kind) {role : Role κ} :
    (R.role kind payload).1 = .ok role ↔ d.Fits payload ∧ role = ⟨kind, payload⟩ := by
  subst hk
  rw [← RoleDefinition.fits_iff, Registry.role, hd]
  dsimp only
  cases d.schema.bind fun schema ↦ schemaError? schema d.kind payload with
  | none => simp [eq_comm]
  | some e => simp

/-- Making a role fails exactly in the way in which the payload does not fit. -/
theorem role_error_iff (hd : R.lookup kind = .ok d) (hk : d.kind = kind)
    {failure : Failure (SchemaError κ)} :
    (R.role kind payload).1 = .error failure ↔ ∃ e, d.Misfit payload e ∧ failure = .error e := by
  subst hk
  simp only [← RoleDefinition.misfit_iff]
  rw [role, hd]
  dsimp only
  cases d.schema.bind fun schema ↦ schemaError? schema d.kind payload with
  | none => simp
  | some e => simp [eq_comm]

/-- The text of the error names the least declared field that is missing. -/
theorem role_message_of_missing (hd : R.lookup kind = .ok d) (hk : d.kind = kind)
    {schema : FieldSet} (declared : d.schema = some schema) {field : String}
    (least : IsLeast {name | name ∈ schema.names ∧ name ∉ payload.names} field) :
    ∃ e, (R.role kind payload).1 = .error (.error e) ∧ e.message K =
      "Invalid input: Role " ++ K.name kind ++ " is missing field '" ++ field ++ "'" := by
  refine ⟨_, (role_error_iff hd hk).mpr ⟨_, .missing declared least, rfl⟩, ?_⟩
  rw [hk]
  rfl

/-- When no declared field is missing, it names the least field that is not declared. -/
theorem role_message_of_undeclared (hd : R.lookup kind = .ok d) (hk : d.kind = kind)
    {schema : FieldSet} (declared : d.schema = some schema)
    (complete : ∀ name ∈ schema.names, name ∈ payload.names) {field : String}
    (least : IsLeast {name | name ∈ payload.names ∧ name ∉ schema.names} field) :
    ∃ e, (R.role kind payload).1 = .error (.error e) ∧ e.message K =
      "Invalid input: Role " ++ K.name kind ++ " has no field '" ++ field ++ "'" := by
  refine ⟨_, (role_error_iff hd hk).mpr ⟨_, .undeclared declared complete least, rfl⟩, ?_⟩
  rw [hk]
  rfl

/-- What a registry makes fits the definition of its kind. -/
theorem Makes.fits (hR : R.Complete) {role : Role κ} (h : R.Makes role)
    (hd : R.lookup role.kind = .ok d) : d.Fits role.payload := by
  obtain ⟨kind, payload, h⟩ := h
  obtain ⟨e, he, hk⟩ := hR kind
  obtain ⟨hf, rfl⟩ := (role_ok_iff he hk).mp h
  cases hd.symm.trans he
  exact hf

variable [DecidableEq κ]

/-- Two roles that a registry made, over kinds with schemas, have the fields that the rules of the
required kind compare. -/
theorem present_of_build (hK : K.Lawful) {b : RegistryBuilder κ} (hb : (b.build K).1 = .ok R)
    {required provided : Role κ} (hrequired : R.Makes required) (hprovided : R.Makes provided)
    {e : RoleDefinition κ} (hd : R.lookup required.kind = .ok d)
    (he : R.lookup provided.kind = .ok e) (hds : d.schema ≠ none) (hes : e.schema ≠ none)
    {pair : AttributeRule κ} (hp : pair ∈ comparedFields d)
    (hk : pair.providedKind = provided.kind) :
    ∃ a b, provided.payload.get? pair.providedField = some a ∧
      required.payload.get? pair.requiredField = some b ∧
      pair.holds provided.payload required.payload = (a == b) := by
  have hR := complete_of_build hK hb
  obtain ⟨hdeclared, e', he', hdeclared'⟩ := declares_of_build hb hd hp
  rw [hk] at he'
  cases he.symm.trans he'
  exact Payload.fieldMatches_of_mem ((hprovided.fits hR he).mem_names hes hdeclared')
    ((hrequired.fits hR hd).mem_names hds hdeclared)

/-- Over a registry that was built, a role is made exactly when the kind declares no schema or the
fields of the payload are the declared ones, and the payload is unchanged. Otherwise the error is
about the least declared field that is missing, or else the least field that is not declared, and
its text names that field and the kind. Between roles that were made, over kinds that declare
schemas, the attribute rules of the required kind and the guards of its predicates that are for the
provided kind find both of their fields, so that they hold exactly when the values are equal. -/
theorem role_fits (hK : K.Lawful) {b : RegistryBuilder κ} (hb : (b.build K).1 = .ok R) :
    (∀ kind payload, ∃ d, R.lookup kind = .ok d ∧ d.kind = kind ∧
      (∀ role, (R.role kind payload).1 = .ok role ↔ d.Fits payload ∧ role = ⟨kind, payload⟩) ∧
      (∀ failure, (R.role kind payload).1 = .error failure ↔
        ∃ e, d.Misfit payload e ∧ failure = .error e) ∧
      ∀ schema, d.schema = some schema →
        (∀ field, IsLeast {name | name ∈ schema.names ∧ name ∉ payload.names} field →
          ∃ e, (R.role kind payload).1 = .error (.error e) ∧
            e.message K =
              "Invalid input: Role " ++ K.name kind ++ " is missing field '" ++ field ++ "'") ∧
        ((∀ name ∈ schema.names, name ∈ payload.names) →
          ∀ field, IsLeast {name | name ∈ payload.names ∧ name ∉ schema.names} field →
            ∃ e, (R.role kind payload).1 = .error (.error e) ∧
              e.message K =
                "Invalid input: Role " ++ K.name kind ++ " has no field '" ++ field ++ "'")) ∧
    ∀ required provided d e, R.Makes required → R.Makes provided →
      R.lookup required.kind = .ok d → R.lookup provided.kind = .ok e →
      d.schema ≠ none → e.schema ≠ none →
      (∀ rule ∈ d.attributeRules, rule.providedKind = provided.kind →
        ∃ a b, provided.payload.get? rule.providedField = some a ∧
          required.payload.get? rule.requiredField = some b ∧
          rule.holds provided.payload required.payload = (a == b)) ∧
      ∀ rule ∈ d.delegated, rule.providedKind = provided.kind → ∀ guard ∈ rule.guards,
        ∃ a b, provided.payload.get? guard.providedField = some a ∧
          required.payload.get? guard.requiredField = some b ∧
          guard.holds provided.payload required.payload = (a == b) := by
  constructor
  · intro kind payload
    obtain ⟨d, hd, hk⟩ := complete_of_build hK hb kind
    exact ⟨d, hd, hk, fun _ ↦ role_ok_iff hd hk, fun _ ↦ role_error_iff hd hk,
      fun _ declared ↦ ⟨fun _ ↦ role_message_of_missing hd hk declared,
        fun complete _ ↦ role_message_of_undeclared hd hk declared complete⟩⟩
  · intro required provided d e hrequired hprovided hd he hds hes
    constructor
    · intro rule hr hk
      exact present_of_build hK hb hrequired hprovided hd he hds hes
        (mem_comparedFields_of_rule hr) hk
    · intro rule hr hk guard hg
      exact present_of_build hK hb hrequired hprovided hd he hds hes
        (mem_comparedFields_of_guard hr hg) hk

end Registry

namespace Rank

/-- Members and admins belong to teams, and admins have a level. Admins admit members of their team,
and, behind a guard, members whom a predicate likes. -/
def teams : RegistryBuilder Rank where
  definitions := [
    RoleDefinition.ofKind guest,
    (RoleDefinition.ofKind member).withFields ["team"],
    RoleDefinition.ofKind editor,
    { (RoleDefinition.ofKind admin).withFields ["team", "level"] with
      attributeRules := [⟨"name", "level", editor⟩, ⟨"team", "team", member⟩]
      delegated := [⟨member, [⟨"team", "level"⟩], fun _ _ _ ↦ true⟩] },
    RoleDefinition.ofKind owner]

/-- The payload of a member of a team. -/
def ofTeam (team : String) : Payload := Payload.unit.set "team" ⟨.string team, trivial⟩

/-- The payload of an admin of the blue team. -/
def leading : Payload := (ofTeam "blue").set "level" ⟨.ofNat 3, by decide⟩

/-- Without a level there is no admin, and with one no member, and the errors say so. A member of
the red team and an admin of the blue team are made; the rule and the guard between them find the
fields that they compare. -/
theorem admin_fits :
    ∃ (R : Registry kinds) (d e : RoleDefinition Rank), kinds.Lawful ∧
      (teams.build kinds).1 = .ok R ∧ R.lookup admin = .ok d ∧ R.lookup member = .ok e ∧
      d.Misfit (ofTeam "blue") (.missingField admin "level") ∧
      e.Misfit leading (.undeclaredField member "level") ∧
      (∃ e, (R.role admin (ofTeam "blue")).1 = .error (.error e) ∧
        e.message kinds = "Invalid input: Role Admin is missing field 'level'") ∧
      (∃ e, (R.role member leading).1 = .error (.error e) ∧
        e.message kinds = "Invalid input: Role Member has no field 'level'") ∧
      R.Makes ⟨admin, leading⟩ ∧ R.Makes ⟨member, ofTeam "red"⟩ ∧
      (∀ rule ∈ d.attributeRules, rule.providedKind = member →
        ∃ a b, (ofTeam "red").get? rule.providedField = some a ∧
          leading.get? rule.requiredField = some b ∧
          rule.holds (ofTeam "red") leading = (a == b)) ∧
      ∀ rule ∈ d.delegated, rule.providedKind = member → ∀ guard ∈ rule.guards,
        ∃ a b, (ofTeam "red").get? guard.providedField = some a ∧
          leading.get? guard.requiredField = some b ∧
          guard.holds (ofTeam "red") leading = (a == b) := by
  let R : Registry kinds := ⟨teams.definitions⟩
  have hb : (teams.build kinds).1 = .ok R := rfl
  have hmissing : (R.role admin (ofTeam "blue")).1 =
      .error (.error (.missingField admin "level")) := rfl
  have hextra : (R.role member leading).1 =
      .error (.error (.undeclaredField member "level")) := rfl
  have hadmin : R.Makes ⟨admin, leading⟩ := ⟨admin, leading, rfl⟩
  have hmember : R.Makes ⟨member, ofTeam "red"⟩ := ⟨member, ofTeam "red", rfl⟩
  obtain ⟨hmade, hpresent⟩ := Registry.role_fits lawful_kinds hb
  obtain ⟨d, hd, -, -, herror, htext⟩ := hmade admin (ofTeam "blue")
  obtain ⟨e, he, -, -, herror', htext'⟩ := hmade member leading
  obtain ⟨misfit, hm, hf⟩ := (herror _).mp hmissing
  cases hf
  obtain ⟨misfit', hm', hf'⟩ := (herror' _).mp hextra
  cases hf'
  cases hd
  cases he
  have hsays : ∃ e, (R.role admin (ofTeam "blue")).1 = .error (.error e) ∧
      e.message kinds = "Invalid input: Role Admin is missing field 'level'" := by
    cases hm with
    | missing declared least =>
      obtain ⟨e, he, ht⟩ := (htext _ declared).1 _ least
      exact ⟨e, he, ht.trans (by decide)⟩
  have hsays' : ∃ e, (R.role member leading).1 = .error (.error e) ∧
      e.message kinds = "Invalid input: Role Member has no field 'level'" := by
    cases hm' with
    | undeclared declared complete least =>
      obtain ⟨e, he, ht⟩ := (htext' _ declared).2 complete _ least
      exact ⟨e, he, ht.trans (by decide)⟩
  obtain ⟨hrules, hguards⟩ := hpresent _ _ _ _ hadmin hmember rfl rfl nofun nofun
  exact ⟨R, _, _, lawful_kinds, hb, rfl, rfl, hm, hm', hsays, hsays', hadmin, hmember, hrules,
    hguards⟩

end Rank
end RoleResolution
