import RoleResolution.Proofs.Search.Recording

/-!
# Grants by direct rules

The direct rules come before everything else that a check does. When one of them applies, the check
grants the role as it is: no conversion is invoked, and the tracker neither matters nor changes,
whatever kinds it has visited and whatever cycles the conversions form. A role always satisfies
itself, since equality of JSON values is reflexive.
-/

namespace RoleResolution

variable {κ : Type}

/-! ### Identical roles -/

instance : ReflBEq Attribute := ⟨fun {a} ↦ Json.beq_refl a.value⟩

instance : ReflBEq Payload := ⟨fun {p} ↦ beq_self_eq_true p.fields.entries⟩

/-- Every role is identical to itself, whatever JSON values its payload holds. -/
instance [DecidableEq κ] : ReflBEq (Role κ) :=
  ⟨fun {v} ↦ (Bool.and_eq_true ..).mpr ⟨decide_eq_true rfl, beq_self_eq_true v.payload⟩⟩

variable [DecidableEq κ] {K : KindSet κ}

/-! ### Rules in turn -/

/-- A direct rule of the required kind grants the provided role when its turn comes after some
invocations. Of the predicates that are due, it is the first one that answers true when they are
asked in order. -/
def RoleDefinition.AppliesInTurn (d : RoleDefinition κ) (R : Registry K) (history : History κ)
    (required provided : Role κ) : MatchedRule → Prop
  | .delegatedPredicate index => ∃ calls,
      Asks required provided (d.due required provided) calls (some index) ∧ R.Genuine history calls
  | rule => d.Applies required provided rule

/-- A direct rule of the required kind grants the provided role when its turn comes. -/
def Registry.AppliesInTurn (R : Registry K) (history : History κ) (required provided : Role κ)
    (rule : MatchedRule) : Prop :=
  ∃ d, R.lookup required.kind = .ok d ∧ d.AppliesInTurn R history required provided rule

omit [DecidableEq κ] in
/-- After the same invocations a predicate has one answer. -/
theorem Registry.Answers.unique {R : Registry K} {history : History κ} {required provided : Role κ}
    {index : Nat} {answer other : Bool}
    (h : R.Answers history (.ask required provided index answer))
    (h' : R.Answers history (.ask required provided index other)) : answer = other := by
  obtain ⟨d, rule, hd, hr, rfl⟩ := h
  obtain ⟨e, rule', he, hr', rfl⟩ := h'
  cases hd.symm.trans he
  cases hr.symm.trans hr'
  rfl

omit [DecidableEq κ] in
/-- After the same invocations the same predicates find the same one. -/
theorem Asks.unique {R : Registry K} {history : History κ} {required provided : Role κ}
    {due : List Nat} {calls calls' : List (Invocation κ)} {granting granting' : Option Nat}
    (h : Asks required provided due calls granting) (hg : R.Genuine history calls)
    (h' : Asks required provided due calls' granting') (hg' : R.Genuine history calls') :
    granting = granting' := by
  induction h generalizing history calls' with
  | done =>
    cases h'
    rfl
  | refused rest ih =>
    cases h' with
    | refused rest' => exact ih hg.2 rest' hg'.2
    | granted => cases hg.1.unique hg'.1
  | granted =>
    cases h' with
    | refused rest' => cases hg.1.unique hg'.1
    | granted => rfl

namespace RoleDefinition

variable {d : RoleDefinition κ} {required provided : Role κ}

/-- What is granted without a predicate is granted by a rule that applies. -/
theorem preempts_iff : d.Preempts required provided ↔
    d.Applies required provided .identity ∨ d.Applies required provided .unconditionalPass ∨
      ∃ index, d.Applies required provided (.attributeRule index) := by
  simp only [Preempts, Applies, List.mem_iff_getElem?]
  constructor
  · rintro (h | h | ⟨rule, ⟨index, hr⟩, hk, hh⟩)
    · exact .inl h
    · exact .inr (.inl h)
    · exact .inr (.inr ⟨index, rule, hr, hk, hh⟩)
  · rintro (h | h | ⟨index, rule, hr, hk, hh⟩)
    · exact .inl h
    · exact .inr (.inl h)
    · exact .inr (.inr ⟨rule, ⟨index, hr⟩, hk, hh⟩)

end RoleDefinition

namespace Resolver

variable {R : Registry K} {required provided : Role κ} {s : Session κ}

/-- The direct rules grant a role exactly when one of them applies in turn. -/
theorem matchDirect_some_iff (hR : R.Complete) :
    (∃ granting, (matchDirect R required provided s).1 = .ok (some granting)) ↔
      ∃ rule, R.AppliesInTurn s.history required provided rule := by
  obtain ⟨d, hd, hk⟩ := hR required.kind
  rcases matchDirect_asks hd hk provided s with
    ⟨hp, hm, -⟩ | ⟨hu, calls, granting, hasks, hm, -, hg⟩
  · refine iff_of_true hm ?_
    rcases RoleDefinition.preempts_iff.mp hp with h | h | ⟨index, h⟩
    · exact ⟨.identity, d, hd, h⟩
    · exact ⟨.unconditionalPass, d, hd, h⟩
    · exact ⟨.attributeRule index, d, hd, h⟩
  · rw [hm]
    constructor
    · rintro ⟨rule, h⟩
      obtain ⟨index, rfl, -⟩ := Option.map_eq_some_iff.mp (Except.ok.inj h)
      exact ⟨.delegatedPredicate index, d, hd, calls, hasks, hg⟩
    · rintro ⟨rule, e, he, h⟩
      cases hd.symm.trans he
      cases rule with
      | identity => exact absurd (RoleDefinition.preempts_iff.mpr (.inl h)) hu
      | unconditionalPass => exact absurd (RoleDefinition.preempts_iff.mpr (.inr (.inl h))) hu
      | attributeRule index =>
        exact absurd (RoleDefinition.preempts_iff.mpr (.inr (.inr ⟨index, h⟩))) hu
      | delegatedPredicate index =>
        obtain ⟨calls', hasks', hg'⟩ := h
        cases hasks.unique hg hasks' hg'
        exact ⟨_, rfl⟩

/-- With deterministic predicates a rule that applies lets some rule apply in turn. -/
theorem exists_appliesInTurn (hR : R.Complete) (hdet : R.Deterministic) (history : History κ)
    {rule : MatchedRule} (h : R.Applies required provided rule) :
    ∃ granting, R.AppliesInTurn history required provided granting := by
  rw [← matchDirect_some_iff (s := ⟨{}, history, []⟩) hR]
  obtain ⟨rule?, hm⟩ := matchDirect_total hR required provided ⟨{}, history, []⟩
  cases rule? with
  | some granting => exact ⟨granting, hm⟩
  | none => exact absurd h (not_applies_of_matchDirect hR hdet hm rule)

/-! ### Checks -/

/-- A check with a tracker grants by a rule at once: after no conversion, and with the tracker left
as it was. -/
structure GrantsAtOnce (t : CycleTracker κ) (rule : MatchedRule)
    (outcome : Outcome κ (Resolution κ)) : Prop where
  resolution : outcome.1 = .ok (.granted rule [])
  unconverted : outcome.2.conversionCalls = []
  tracker : outcome.2.tracker = t

/-- A search examines the role that it starts from. -/
theorem search_examines (R : Registry K) (required : Role κ) :
    ∃ inner, search R required = examine R required inner := by
  unfold search
  cases K.count with
  | zero => exact ⟨_, rfl⟩
  | succ hops => exact ⟨_, rfl⟩

/-- A search ends at once with what the direct rules find. -/
theorem search_of_matchDirect {rule : MatchedRule} {s₁ : Session κ}
    (h : matchDirect R required provided s = (.ok (some rule), s₁)) :
    search R required provided s =
      (.ok (some (rule, [])), s₁.report (.directRuleMatched provided rule)) := by
  obtain ⟨inner, hs⟩ := search_examines R required
  rw [hs]
  simp only [examine, h]

omit [DecidableEq κ] in
/-- A grant that trying conversions finds is one after a conversion. -/
theorem tryConversions_path_ne_nil {search : SearchFrom κ} {owner : κ} {provided : Role κ}
    {rule : MatchedRule} {path : List κ} {rules : List (ConversionRule κ × Nat)} {s : Session κ}
    (h : (tryConversions search owner provided rules s).1 = .ok (some (rule, path))) :
    path ≠ [] := by
  induction rules generalizing s with
  | nil => cases h
  | cons entry rest ih =>
    obtain ⟨conversion, index⟩ := entry
    rw [tryConversions_cons] at h
    split at h
    · exact ih h
    · split at h
      · exact ih h
      · obtain ⟨rest, rfl, -⟩ := Finding.after_eq_granted.mp h
        exact List.cons_ne_nil _ _

/-- An examination that grants without a conversion grants by what the direct rules find. -/
theorem matchDirect_of_examine (hR : R.Complete) {search : SearchFrom κ} {rule : MatchedRule}
    (h : (examine R required search provided s).1 = .ok (some (rule, []))) :
    (matchDirect R required provided s).1 = .ok (some rule) := by
  have hi := inspected hR required provided s
  rw [examine_eq] at h
  split at h
  · next finding s₁ hs =>
    rw [hs] at hi
    cases hi with
    | granted matched tracker =>
      cases h
      exact matched
    | barren unmatched unconverted tracker => cases h
    | repeated unmatched converts visited tracker => cases h
    | overrun fresh full => cases h
  · exact absurd rfl (tryConversions_path_ne_nil h)

/-- A check grants at once by what the direct rules find, and it has invoked what they did. -/
theorem grantsAtOnce_of_matchDirect {r : Resolver K} (hR : r.registry.Complete)
    {t : CycleTracker κ} {rule : MatchedRule} {s₁ : Session κ}
    (h : matchDirect r.registry required provided ⟨t, [], []⟩ = (.ok (some rule), s₁)) :
    GrantsAtOnce t rule (r.resolveWith required provided t) ∧
      (r.resolveWith required provided t).2.history = s₁.history := by
  obtain ⟨ht, hc⟩ := matchDirect_frame r.registry required provided ⟨t, [], []⟩
  obtain ⟨hresolution, htracker, hhistory⟩ := resolveIn_search hR required provided ⟨t, [], []⟩
  rw [search_of_matchDirect h] at hresolution htracker hhistory
  rw [h] at ht hc
  unfold resolveWith
  refine ⟨⟨hresolution, ?_, htracker.trans ht⟩, hhistory⟩
  unfold Session.conversionCalls at hc ⊢
  rw [hhistory]
  exact hc

/-- A check that grants at once grants by what the direct rules find. -/
theorem matchDirect_of_grantsAtOnce {r : Resolver K} (hR : r.registry.Complete)
    {t : CycleTracker κ} {rule : MatchedRule}
    (h : GrantsAtOnce t rule (r.resolveWith required provided t)) :
    (matchDirect r.registry required provided ⟨t, [], []⟩).1 = .ok (some rule) := by
  obtain ⟨hresolution, -, -⟩ := resolveIn_search hR required provided ⟨t, [], []⟩
  have hfinding := Finding.resolution_eq_granted.mp (hresolution.symm.trans h.resolution)
  obtain ⟨inner, hs⟩ := search_examines r.registry required
  rw [hs] at hfinding
  exact matchDirect_of_examine hR hfinding

/-- Over a registry that was built and with any tracker, a role satisfies itself by identity, and
one of a kind that passes satisfies any other role of the required kind; both at once and with
nothing invoked. A check grants at once exactly when some direct rule applies in turn. Where the
predicates are deterministic it does so whenever one applies, and by the first that does. -/
theorem resolveWith_direct (hK : K.Lawful) {b : RegistryBuilder κ} {r : Resolver K}
    (hb : (b.build K).1 = .ok r.registry) (t : CycleTracker κ) :
    (∀ v, GrantsAtOnce t .identity (r.resolveWith v v t) ∧
      (r.resolveWith v v t).2.history = []) ∧
    (∀ required provided d, (required == provided) = false →
      r.registry.lookup required.kind = .ok d → provided.kind ∈ d.passes →
      GrantsAtOnce t .unconditionalPass (r.resolveWith required provided t) ∧
        (r.resolveWith required provided t).2.history = []) ∧
    (∀ required provided, (∃ rule, GrantsAtOnce t rule (r.resolveWith required provided t)) ↔
      ∃ rule, r.registry.AppliesInTurn [] required provided rule) ∧
    (r.registry.Deterministic → ∀ required provided rule,
      r.registry.Applies required provided rule →
      ∃ first, r.registry.FirstApplies required provided first ∧
        GrantsAtOnce t first (r.resolveWith required provided t)) := by
  have hR := Registry.complete_of_build hK hb
  refine ⟨?_, ?_, ?_, ?_⟩
  · intro v
    have hm : matchDirect r.registry v v ⟨t, [], []⟩ = (.ok (some .identity), ⟨t, [], []⟩) := by
      rw [matchDirect, if_pos (beq_self_eq_true v)]
    exact grantsAtOnce_of_matchDirect hR hm
  · intro required provided d hne hd hp
    have hpass : d.passesKind provided.kind = true := decide_eq_true hp
    have hm : matchDirect r.registry required provided ⟨t, [], []⟩ =
        (.ok (some .unconditionalPass), ⟨t, [], []⟩) := by
      simp only [matchDirect, hne, hd, matchRules, hpass, Bool.false_eq_true, if_false, if_true]
    exact grantsAtOnce_of_matchDirect hR hm
  · intro required provided
    have hmatch : (∃ rule, (matchDirect r.registry required provided ⟨t, [], []⟩).1 =
        .ok (some rule)) ↔ ∃ rule, r.registry.AppliesInTurn [] required provided rule :=
      matchDirect_some_iff hR
    rw [← hmatch]
    refine exists_congr fun rule ↦ ⟨matchDirect_of_grantsAtOnce hR, fun hm ↦ ?_⟩
    exact (grantsAtOnce_of_matchDirect hR (Prod.ext hm rfl)).1
  · intro hdet required provided rule happlies
    have hturn := exists_appliesInTurn hR hdet [] happlies
    obtain ⟨first, hm⟩ := (matchDirect_some_iff (s := ⟨t, [], []⟩) hR).mpr hturn
    exact ⟨first, firstApplies_of_matchDirect hR hdet hm,
      (grantsAtOnce_of_matchDirect hR (Prod.ext hm rfl)).1⟩

end Resolver

namespace Rank

/-- Editors satisfy owners without condition, members when they are of the same team, and guests
when the second predicate about them is asked after the first. All ranks but admins are converted
into one another, round and round. -/
def welcoming : RegistryBuilder Rank where
  definitions := [
    { RoleDefinition.ofKind guest with conversions := [always member] },
    { RoleDefinition.ofKind member with conversions := [always editor] },
    { RoleDefinition.ofKind editor with conversions := [always owner] },
    RoleDefinition.ofKind admin,
    { RoleDefinition.ofKind owner with
      passes := [editor]
      attributeRules := [⟨"team", "team", member⟩]
      delegated := [⟨guest, [], fun _ _ _ ↦ false⟩,
        ⟨guest, [], fun history _ _ ↦ history.length == 1⟩]
      conversions := [always guest] }]

/-- The resolver of the welcoming ranks. -/
def welcome : Resolver kinds where
  registry := ⟨welcoming.definitions⟩

/-- A payload with a nested value: a number that is equal to itself as a negative zero, inside an
array, beside an object. -/
def nested : Payload :=
  Payload.unit.set "team"
    ⟨.array [.number (.float ⟨true, 0⟩), .object [("id", .number (.integer (-7)))]], by decide⟩

/-- Although all ranks concerned are visited, an owner with a nested payload is an owner, editors
and members of the team satisfy owners, and a guest does so once the second predicate is asked. -/
theorem owner_welcomes :
    let visited : CycleTracker Rank := ⟨[owner, guest, member, editor]⟩
    kinds.Lawful ∧ (welcoming.build kinds).1 = .ok welcome.registry ∧
      Resolver.GrantsAtOnce visited .identity
        (welcome.resolveWith ⟨owner, nested⟩ ⟨owner, nested⟩ visited) ∧
      Resolver.GrantsAtOnce visited .unconditionalPass
        (welcome.resolveWith ⟨owner, nested⟩ (.unit editor) visited) ∧
      (∃ rule, Resolver.GrantsAtOnce visited rule
        (welcome.resolveWith ⟨owner, nested⟩ ⟨member, nested⟩ visited)) ∧
      (∃ rule, Resolver.GrantsAtOnce visited rule
        (welcome.resolveWith (.unit owner) (.unit guest) visited)) ∧
      (welcome.resolveWith (.unit owner) (.unit guest) visited).2.history =
        [.predicate owner 0 .unit .unit false, .predicate owner 1 .unit .unit true] := by
  intro visited
  have hb : (welcoming.build kinds).1 = .ok welcome.registry := rfl
  obtain ⟨hsame, hpass, hrule, -⟩ := Resolver.resolveWith_direct lawful_kinds hb visited
  have hmember : welcome.registry.AppliesInTurn [] ⟨owner, nested⟩ ⟨member, nested⟩
      (.attributeRule 0) := ⟨_, rfl, _, rfl, rfl, by decide⟩
  have hguest : welcome.registry.AppliesInTurn [] (.unit owner) (.unit guest)
      (.delegatedPredicate 1) :=
    ⟨_, rfl, [.ask (.unit owner) (.unit guest) 0 false, .ask (.unit owner) (.unit guest) 1 true],
      .refused .granted, ⟨_, _, rfl, rfl, rfl⟩, ⟨_, _, rfl, rfl, rfl⟩, trivial⟩
  refine ⟨lawful_kinds, hb, (hsame _).1, ?_, (hrule _ _).mpr ⟨_, hmember⟩,
    (hrule _ _).mpr ⟨_, hguest⟩, rfl⟩
  exact (hpass _ _ _ rfl rfl List.mem_cons_self).1

end Rank
end RoleResolution
