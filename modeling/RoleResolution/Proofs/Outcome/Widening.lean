import RoleResolution.Proofs.Outcome.Bound
import RoleResolution.Proofs.Search.Granting

/-!
# Wider direct rules

Direct rules may be added to the definition of the required kind. Until one of them grants a role,
the search goes on in step with the search without them: the same roles are examined, the same kinds
entered and the same functions invoked, but for the added predicates. So whatever is granted without
them is granted with them, through the same conversions or earlier ones, and no search that ended
well ends in a cycle.
-/

namespace RoleResolution

variable {κ : Type}

/-! ### Inserted predicates -/

section Insertion

-- the original position of the predicate at a position, unless it is an inserted one
variable (origin : Nat → Option Nat)

/-- An invocation as it was without the inserted predicates, unless it is of one of them. -/
def Invocation.original? : Invocation κ → Option (Invocation κ)
  | .predicate owner index provided required answer =>
    (origin index).map fun i ↦ .predicate owner i provided required answer
  | .conversion owner index payload answer => some (.conversion owner index payload answer)

/-- The invocations of a check as they were without the inserted predicates. A check asks predicates
of the required kind only. -/
def originals (history : History κ) : History κ :=
  history.filterMap (Invocation.original? origin)

/-- A predicate beside inserted ones, which leave the state that it keeps alone. -/
def DelegatedPredicate.beside (rule : DelegatedPredicate κ) : DelegatedPredicate κ :=
  { rule with predicate := fun history ↦ rule.predicate (originals origin history) }

/-- A conversion beside inserted predicates, which leave the state that it keeps alone. -/
def ConversionRule.beside (rule : ConversionRule κ) : ConversionRule κ :=
  { rule with conversion := fun history ↦ rule.conversion (originals origin history) }

/-- Predicates with their positions, before and after others are inserted among them. The inserted
ones may answer as they like. -/
inductive Insertion :
    List (DelegatedPredicate κ × Nat) → List (DelegatedPredicate κ × Nat) → Prop where
  | nil : Insertion [] []
  | kept {rule : DelegatedPredicate κ} {index index' : Nat}
      {rules rules' : List (DelegatedPredicate κ × Nat)} (position : origin index' = some index)
      (rest : Insertion rules rules') :
      Insertion ((rule, index) :: rules) ((rule.beside origin, index') :: rules')
  | inserted {rule : DelegatedPredicate κ} {index' : Nat}
      {rules rules' : List (DelegatedPredicate κ × Nat)} (position : origin index' = none)
      (rest : Insertion rules rules') : Insertion rules ((rule, index') :: rules')

/-- A definition has direct rules that another one has, too, perhaps with more among them. -/
structure RoleDefinition.WidensTo (d d' : RoleDefinition κ) : Prop where
  passes : d.passes ⊆ d'.passes
  attributeRules : d.attributeRules ⊆ d'.attributeRules
  delegated : Insertion origin d.delegated.zipIdx d'.delegated.zipIdx

/-- A registry has the conversions that another one has, too, and for one kind direct rules that the
other has, perhaps with more among them. -/
structure Registry.WidensTo {K : KindSet κ} (R R' : Registry K) (kind : κ) : Prop where
  direct : ∀ d d', R.lookup kind = .ok d → R'.lookup kind = .ok d' → d.WidensTo origin d'
  conversions : ∀ other d d', R.lookup other = .ok d → R'.lookup other = .ok d' →
    d'.conversions = d.conversions.map (·.beside origin)

/-- Two sessions are at the same point, but for invocations of inserted predicates. -/
structure Parallel (s s' : Session κ) : Prop where
  tracker : s'.tracker = s.tracker
  history : originals origin s'.history = s.history

end Insertion

variable {origin : Nat → Option Nat}

/-! ### Deterministic functions -/

/-- A deterministic predicate is the same beside inserted ones. -/
theorem DelegatedPredicate.beside_of_deterministic {rule : DelegatedPredicate κ}
    (h : Predicate.Deterministic rule.predicate) : rule.beside origin = rule := by
  refine congrArg (DelegatedPredicate.mk rule.providedKind rule.guards) ?_
  funext history provided required
  rw [h (originals origin history), h history]

/-- A deterministic conversion is the same beside inserted predicates. -/
theorem ConversionRule.beside_of_deterministic {rule : ConversionRule κ}
    (h : Conversion.Deterministic rule.conversion) : rule.beside origin = rule := by
  refine congrArg (ConversionRule.mk rule.targetKind) ?_
  funext history payload
  rw [h (originals origin history), h history]

/-- Deterministic predicates with others among them come from an insertion. What is said of the
positions before them does not matter. -/
theorem exists_insertion {rules rules' : List (DelegatedPredicate κ)}
    (h : rules.Sublist rules') (hdet : ∀ rule ∈ rules, Predicate.Deterministic rule.predicate)
    (n n' : Nat) (before : Nat → Option Nat) :
    ∃ origin : Nat → Option Nat, (∀ i < n', origin i = before i) ∧
      Insertion origin (rules.zipIdx n) (rules'.zipIdx n') := by
  induction h generalizing n n' before with
  | slnil => exact ⟨before, fun _ _ ↦ rfl, .nil⟩
  | cons rule _ ih =>
    obtain ⟨origin, hbefore, hi⟩ := ih hdet n (n' + 1) (Function.update before n' none)
    have ho : origin n' = none := by
      rw [hbefore n' (Nat.lt_succ_self n'), Function.update_self]
    refine ⟨origin, fun i hlt ↦ ?_, .inserted ho hi⟩
    rw [hbefore i (Nat.lt_succ_of_lt hlt), Function.update_of_ne (Nat.ne_of_lt hlt)]
  | cons_cons rule _ ih =>
    obtain ⟨origin, hbefore, hi⟩ := ih (fun rule hm ↦ hdet rule (List.mem_cons_of_mem _ hm)) (n + 1)
      (n' + 1) (Function.update before n' (some n))
    have ho : origin n' = some n := by
      rw [hbefore n' (Nat.lt_succ_self n'), Function.update_self]
    have hk : Insertion origin ((rule, n) :: _) ((rule.beside origin, n') :: _) := .kept ho hi
    rw [rule.beside_of_deterministic (hdet rule List.mem_cons_self)] at hk
    refine ⟨origin, fun i hlt ↦ ?_, hk⟩
    rw [hbefore i (Nat.lt_succ_of_lt hlt), Function.update_of_ne (Nat.ne_of_lt hlt)]

/-- Over deterministic functions, a registry is widened by one that has the same conversions, and
for the kind the same direct rules with others among them. -/
theorem Registry.exists_widensTo {K : KindSet κ} {R R' : Registry K} (hdet : R.Deterministic)
    {kind : κ} {d d' : RoleDefinition κ} (hd : R.lookup kind = .ok d)
    (hd' : R'.lookup kind = .ok d') (hpasses : d.passes ⊆ d'.passes)
    (hattribute : d.attributeRules ⊆ d'.attributeRules)
    (hdelegated : d.delegated.Sublist d'.delegated)
    (hconversions : ∀ other e e', R.lookup other = .ok e → R'.lookup other = .ok e' →
      e'.conversions = e.conversions) : ∃ origin, R.WidensTo origin R' kind := by
  obtain ⟨origin, -, hi⟩ :=
    exists_insertion hdelegated (hdet d (mem_of_lookup hd)).predicates 0 0 fun _ ↦ none
  refine ⟨origin, ?_, ?_⟩
  · intro e e' he he'
    cases hd.symm.trans he
    cases hd'.symm.trans he'
    exact ⟨hpasses, hattribute, hi⟩
  · intro other e e' he he'
    have hsame : ∀ rule ∈ e.conversions, rule.beside origin = rule := fun rule hm ↦
      rule.beside_of_deterministic ((hdet e (mem_of_lookup he)).conversions rule hm)
    rw [hconversions other e e' he he', List.map_congr_left hsame]
    exact (List.map_id _).symm

namespace Parallel

variable {s s' : Session κ} {owner : κ} {index index' : Nat} {provided required : Payload}

/-- Sessions stay parallel when both invoke a predicate that was there before. -/
theorem kept (h : Parallel origin s s') (ho : origin index' = some index) (answer : Bool) :
    Parallel origin (s.record (.predicate owner index provided required answer))
      (s'.record (.predicate owner index' provided required answer)) where
  tracker := h.tracker
  history := by simp [originals, Session.record, Invocation.original?, ho, ← h.history]

/-- Sessions stay parallel when one of them invokes an inserted predicate. -/
theorem inserted (h : Parallel origin s s') (ho : origin index' = none) (answer : Bool) :
    Parallel origin s (s'.record (.predicate owner index' provided required answer)) where
  tracker := h.tracker
  history := by simp [originals, Session.record, Invocation.original?, ho, ← h.history]

/-- Sessions stay parallel when both invoke a conversion. -/
theorem convert (h : Parallel origin s s') (payload : Payload) (answer : Option Payload) :
    Parallel origin (s.record (.conversion owner index payload answer))
      (s'.record (.conversion owner index payload answer)) where
  tracker := h.tracker
  history := by simp [originals, Session.record, Invocation.original?, ← h.history]

/-- Events do not matter. -/
theorem report (h : Parallel origin s s') (e e' : Event κ) :
    Parallel origin (s.report e) (s'.report e') := ⟨h.tracker, h.history⟩

end Parallel

namespace Resolver

variable [DecidableEq κ] {K : KindSet κ} {R R' : Registry K} {required : Role κ}

/-- When none of the predicates grants the role, none did without the inserted ones. -/
theorem firstPredicate_parallel {owner : κ} {provided : Role κ}
    {rules rules' : List (DelegatedPredicate κ × Nat)} (h : Insertion origin rules rules')
    {s s' : Session κ} (hs : Parallel origin s s')
    (hnone : (firstPredicate owner required provided rules' s').1 = none) :
    (firstPredicate owner required provided rules s).1 = none ∧
      Parallel origin (firstPredicate owner required provided rules s).2
        (firstPredicate owner required provided rules' s').2 := by
  induction h generalizing s s' with
  | nil => exact ⟨rfl, hs⟩
  | @kept rule index index' rules rules' position rest ih =>
    have hguards : (rule.beside origin).guardsHold = rule.guardsHold := rfl
    have hanswer : (rule.beside origin).predicate s'.history = rule.predicate s.history := by
      rw [← hs.history]
      rfl
    have hkind : (rule.beside origin).providedKind = rule.providedKind := rfl
    simp only [firstPredicate, hguards, hanswer, hkind] at hnone ⊢
    split at hnone
    · next hk =>
      rw [if_pos hk, if_pos hk]
      exact ih hs hnone
    · next hk =>
      rw [if_neg hk, if_neg hk]
      split at hnone
      · next hg =>
        rw [if_pos hg, if_pos hg]
        split at hnone
        · cases hnone
        · next ha =>
          rw [if_neg ha, if_neg ha]
          exact ih (hs.kept position _) hnone
      · next hg =>
        rw [if_neg hg, if_neg hg]
        exact ih (hs.report _ _) hnone
  | @inserted rule index' rules rules' position rest ih =>
    simp only [firstPredicate] at hnone ⊢
    split at hnone
    · next hk =>
      rw [if_pos hk]
      exact ih hs hnone
    · next hk =>
      rw [if_neg hk]
      split at hnone
      · next hg =>
        rw [if_pos hg]
        split at hnone
        · cases hnone
        · next ha =>
          rw [if_neg ha]
          exact ih (hs.inserted position _) hnone
      · next hg =>
        rw [if_neg hg]
        exact ih ⟨hs.tracker, hs.history⟩ hnone

/-- When no rule of the wider definition grants the role, none of the other does. -/
theorem matchRules_parallel {d d' : RoleDefinition κ} (hw : d.WidensTo origin d')
    (hkind : d'.kind = d.kind) {provided : Role κ} {s s' : Session κ} (hs : Parallel origin s s')
    (hnone : (matchRules d' required provided s').1 = none) :
    (matchRules d required provided s).1 = none ∧
      Parallel origin (matchRules d required provided s).2
        (matchRules d' required provided s').2 := by
  unfold matchRules at hnone ⊢
  split at hnone
  · cases hnone
  · next hp =>
    have hpasses : ¬ d.passesKind provided.kind = true := fun h ↦
      hp (decide_eq_true (hw.passes (of_decide_eq_true h)))
    rw [if_neg hp, if_neg hpasses]
    split at hnone
    · cases hnone
    · next ha =>
      have hattribute : firstAttributeRule? d required provided = none :=
        List.findIdx?_eq_none_iff.mpr fun rule hm ↦
          List.findIdx?_eq_none_iff.mp ha rule (hw.attributeRules hm)
      dsimp only at hnone
      rw [Option.map_eq_none_iff] at hnone
      obtain ⟨hfirst, hparallel⟩ := firstPredicate_parallel hw.delegated hs hnone
      rw [hattribute, ← hkind]
      exact ⟨Option.map_eq_none_iff.mpr hfirst, hparallel⟩

/-- When no direct rule of the wider registry grants the role, none of the other does. -/
theorem matchDirect_parallel (hR : R.Complete) (hR' : R'.Complete)
    (hw : R.WidensTo origin R' required.kind) (provided : Role κ) {s s' : Session κ}
    (hs : Parallel origin s s') (hnone : (matchDirect R' required provided s').1 = .ok none) :
    (matchDirect R required provided s).1 = .ok none ∧
      Parallel origin (matchDirect R required provided s).2
        (matchDirect R' required provided s').2 := by
  obtain ⟨d, hd, hk⟩ := hR required.kind
  obtain ⟨d', hd', hk'⟩ := hR' required.kind
  unfold matchDirect at hnone ⊢
  rw [hd'] at hnone ⊢
  rw [hd]
  split at hnone
  · cases hnone
  · next he =>
    rw [if_neg he, if_neg he]
    obtain ⟨hrules, hparallel⟩ := matchRules_parallel (hw.direct d d' hd hd')
      (hk'.trans hk.symm) hs (Except.ok.inj hnone)
    exact ⟨congrArg Except.ok hrules, hparallel⟩

/-- What the inspection of a role comes to beside what it comes to with wider direct rules: a grant,
or else the same in a parallel session. -/
inductive Beside (origin : Nat → Option Nat) :
    Verdict κ × Session κ → Verdict κ × Session κ → Prop where
  | granted {verdict : Verdict κ} {s s' : Session κ} {granting : MatchedRule} :
      Beside origin (verdict, s) (.settled (.ok (some (granting, []))), s')
  | settled {finding : Finding κ} {s s' : Session κ} (parallel : Parallel origin s s') :
      Beside origin (.settled finding, s) (.settled finding, s')
  | entered {d d' : RoleDefinition κ} {s s' : Session κ} (kind : d'.kind = d.kind)
      (conversions : d'.conversions = d.conversions.map (·.beside origin))
      (parallel : Parallel origin s s') : Beside origin (.entered d, s) (.entered d', s')

/-- An inspection with wider direct rules grants the role or comes to the same. -/
theorem inspect_beside (hR : R.Complete) (hR' : R'.Complete)
    (hw : R.WidensTo origin R' required.kind) (provided : Role κ) {s s' : Session κ}
    (hs : Parallel origin s s') :
    Beside origin (inspect R required provided s) (inspect R' required provided s') := by
  obtain ⟨rule?, hmatch⟩ := matchDirect_total hR' required provided s'
  have hnone := matchDirect_parallel hR hR' hw provided hs
  obtain ⟨d, hd, hk⟩ := hR provided.kind
  obtain ⟨d', hd', hk'⟩ := hR' provided.kind
  have hconversions := hw.conversions provided.kind d d' hd hd'
  unfold inspect
  rcases hm' : matchDirect R' required provided s' with ⟨answer', t'⟩
  rw [hm'] at hmatch hnone
  dsimp only at hmatch hnone
  subst hmatch
  cases rule? with
  | some granting => exact .granted
  | none =>
    obtain ⟨hunmatched, hparallel⟩ := hnone rfl
    rcases hm : matchDirect R required provided s with ⟨answer, t⟩
    rw [hm] at hunmatched hparallel
    dsimp only at hunmatched hparallel
    subst hunmatched
    simp only [hd, hd', hconversions, List.isEmpty_map, hparallel.tracker]
    split
    · exact .settled hparallel
    · rcases t.tracker.enter K provided.kind with ⟨failure | _, tracker⟩
      · exact .settled ⟨rfl, hparallel.history⟩
      · exact .entered (hk'.trans hk.symm) hconversions ⟨rfl, hparallel.history⟩

omit [DecidableEq κ] in
/-- A conversion beside inserted predicates gives the same role in a parallel session. -/
theorem attempt_parallel {owner : κ} {provided : Role κ} {rule : ConversionRule κ} {index : Nat}
    {s s' s₁ : Session κ} (hs : Parallel origin s s') {converted? : Option (Role κ)}
    (h : attempt owner provided rule index s = (converted?, s₁)) :
    ∃ s₁', attempt owner provided (rule.beside origin) index s' = (converted?, s₁') ∧
      Parallel origin s₁ s₁' := by
  have hanswer : (rule.beside origin).conversion s'.history = rule.conversion s.history := by
    rw [← hs.history]
    rfl
  unfold attempt at h ⊢
  dsimp only at h ⊢
  rw [hanswer]
  split at h
  · next ha =>
    cases h
    rw [ha]
    exact ⟨_, rfl, (hs.convert provided.payload _).report _ _⟩
  · next payload ha =>
    cases h
    rw [ha]
    exact ⟨_, rfl, (hs.convert provided.payload _).report _ _⟩

/-- Conversion rules with their positions, beside inserted predicates. -/
def besides (origin : Nat → Option Nat) (rules : List (ConversionRule κ × Nat)) :
    List (ConversionRule κ × Nat) :=
  rules.map fun entry ↦ (entry.1.beside origin, entry.2)

omit [DecidableEq κ] in
/-- The positions of conversion rules stay the same beside inserted predicates. -/
theorem zipIdx_beside {d d' : RoleDefinition κ}
    (h : d'.conversions = d.conversions.map (·.beside origin)) :
    d'.conversions.zipIdx = besides origin d.conversions.zipIdx := by
  rw [h, List.zipIdx_map]
  rfl

mutual

/-- A search with wider direct rules grants the role, or it ends as the other one does. -/
theorem Explores.beside (hR : R.Complete) (hR' : R'.Complete)
    (hw : R.WidensTo origin R' required.kind) {provided : Role κ} {s s' s₁ : Session κ}
    {examined : List (Role κ)} {finding : Finding κ}
    (h : Explores R required provided s examined finding s₁) (hs : Parallel origin s s') :
    (∃ chain path granting, GrantedBy R' required provided s' chain path granting) ∨
      ∃ examined' s₁', Explores R' required provided s' examined' finding s₁' ∧
        Parallel origin s₁ s₁' := by
  have hb := inspect_beside hR hR' hw provided hs
  match h with
  | .settled hi =>
    rw [hi] at hb
    rcases hi' : inspect R' required provided s' with ⟨verdict', s₁'⟩
    rw [hi'] at hb
    cases hb with
    | granted => exact .inl ⟨[], [], _, .direct hi'⟩
    | settled hparallel => exact .inr ⟨[provided], s₁', .settled hi', hparallel⟩
  | .entered hi tried =>
    rw [hi] at hb
    rcases hi' : inspect R' required provided s' with ⟨verdict', s₁'⟩
    rw [hi'] at hb
    cases hb with
    | granted => exact .inl ⟨[], [], _, .direct hi'⟩
    | entered hk hc hparallel =>
      rcases tried.beside hR hR' hw hparallel with
        ⟨chain, path, granting, hg⟩ | ⟨later, s₂', he, hp⟩
      · rw [← zipIdx_beside hc, ← hk] at hg
        exact .inl ⟨chain, path, granting, .entered hi' hg⟩
      · rw [← zipIdx_beside hc, ← hk] at he
        exact .inr ⟨provided :: later, s₂', .entered hi' he, hp⟩

/-- A trial of conversions with wider direct rules grants the role, or it ends as the other one. -/
theorem ExploresRules.beside (hR : R.Complete) (hR' : R'.Complete)
    (hw : R.WidensTo origin R' required.kind) {owner : κ} {provided : Role κ}
    {rules : List (ConversionRule κ × Nat)} {s s' s₁ : Session κ} {examined : List (Role κ)}
    {finding : Finding κ} (h : ExploresRules R required owner provided rules s examined finding s₁)
    (hs : Parallel origin s s') :
    (∃ chain path granting,
      GrantedAmong R' required owner provided (besides origin rules) s' chain path granting) ∨
      ∃ examined' s₁',
        ExploresRules R' required owner provided (besides origin rules) s' examined' finding s₁' ∧
          Parallel origin s₁ s₁' := by
  match h with
  | .done => exact .inr ⟨[], s', .done, hs⟩
  | .declined attempted rest =>
    obtain ⟨t', ha, ht⟩ := attempt_parallel hs attempted
    rcases rest.beside hR hR' hw ht with ⟨chain, path, granting, hg⟩ | ⟨later, s₁', he, hp⟩
    · exact .inl ⟨chain, path, granting, .declined ha hg⟩
    · exact .inr ⟨later, s₁', .declined ha he, hp⟩
  | .fruitless attempted inner rest =>
    obtain ⟨t', ha, ht⟩ := attempt_parallel hs attempted
    rcases inner.beside hR hR' hw ht with ⟨chain, path, granting, hg⟩ | ⟨between, u', hi, hu⟩
    · exact .inl ⟨_, _, granting, .through ha hg⟩
    · rcases rest.beside hR hR' hw hu with ⟨chain, path, granting, hg⟩ | ⟨later, s₁', he, hp⟩
      · exact .inl ⟨chain, path, granting, .fruitless ha hi hg⟩
      · exact .inr ⟨between ++ later, s₁', .fruitless ha hi he, hp⟩
  | .decided attempted inner decisive =>
    obtain ⟨t', ha, ht⟩ := attempt_parallel hs attempted
    rcases inner.beside hR hR' hw ht with ⟨chain, path, granting, hg⟩ | ⟨between, u', hi, hu⟩
    · exact .inl ⟨_, _, granting, .through ha hg⟩
    · exact .inr ⟨between, u', .decided ha hi decisive, hu⟩

end

/-- Positions in a list are in increasing order. -/
private theorem pairwise_zipIdx {α : Type} (xs : List α) :
    (xs.zipIdx.map (·.2)).Pairwise (· < ·) := by
  rw [List.zipIdx_map_snd]
  exact List.pairwise_lt_range'

mutual

/-- Where a search grants a role, the search with wider direct rules grants it through the same
chain or an earlier one. -/
theorem GrantedBy.beside (hR : R.Complete) (hR' : R'.Complete)
    (hw : R.WidensTo origin R' required.kind) {provided : Role κ} {s s' : Session κ}
    {chain : List Nat} {path : List κ} {granting : MatchedRule}
    (h : GrantedBy R required provided s chain path granting) (hs : Parallel origin s s') :
    ∃ chain' path' granting', GrantedBy R' required provided s' chain' path' granting' ∧
      (chain' = chain ∨ chain' < chain) := by
  have hb := inspect_beside hR hR' hw provided hs
  match h with
  | .direct hi =>
    rw [hi] at hb
    rcases hi' : inspect R' required provided s' with ⟨verdict', s₁'⟩
    rw [hi'] at hb
    cases hb with
    | granted => exact ⟨[], [], _, .direct hi', .inl rfl⟩
    | settled hparallel => exact ⟨[], [], _, .direct hi', .inl rfl⟩
  | .entered hi tried =>
    rw [hi] at hb
    rcases hi' : inspect R' required provided s' with ⟨verdict', s₁'⟩
    rw [hi'] at hb
    cases hb with
    | granted =>
      obtain ⟨index, rest, rfl, -⟩ := tried.exists_cons
      exact ⟨[], [], _, .direct hi', .inr (List.nil_lt_cons index rest)⟩
    | entered hk hc hparallel =>
      obtain ⟨chain', path', granting', hg, hle⟩ :=
        tried.beside hR hR' hw hparallel (pairwise_zipIdx _)
      rw [← zipIdx_beside hc, ← hk] at hg
      exact ⟨chain', path', granting', .entered hi' hg, hle⟩

/-- Where conversions in order of their positions lead to a grant, they do so with wider direct
rules through the same chain or an earlier one. -/
theorem GrantedAmong.beside (hR : R.Complete) (hR' : R'.Complete)
    (hw : R.WidensTo origin R' required.kind) {owner : κ} {provided : Role κ}
    {rules : List (ConversionRule κ × Nat)} {s s' : Session κ} {chain : List Nat} {path : List κ}
    {granting : MatchedRule}
    (h : GrantedAmong R required owner provided rules s chain path granting)
    (hs : Parallel origin s s') (hsorted : (rules.map (·.2)).Pairwise (· < ·)) :
    ∃ chain' path' granting',
      GrantedAmong R' required owner provided (besides origin rules) s' chain' path' granting' ∧
        (chain' = chain ∨ chain' < chain) := by
  match h with
  | .declined attempted rest =>
    obtain ⟨t', ha, ht⟩ := attempt_parallel hs attempted
    obtain ⟨chain', path', granting', hg, hle⟩ :=
      rest.beside hR hR' hw ht (List.pairwise_cons.mp hsorted).2
    exact ⟨chain', path', granting', .declined ha hg, hle⟩
  | .fruitless attempted inner rest =>
    obtain ⟨hlater, hsorted⟩ := List.pairwise_cons.mp hsorted
    obtain ⟨t', ha, ht⟩ := attempt_parallel hs attempted
    rcases inner.beside hR hR' hw ht with ⟨chain', path', granting', hg⟩ | ⟨between, u', hi, hu⟩
    · -- the search from the result, which found nothing, now grants before the later conversions
      obtain ⟨index, tail, rfl, hm⟩ := rest.exists_cons
      refine ⟨_, _, granting', .through ha hg, .inr (List.cons_lt_cons_iff.mpr (.inl ?_))⟩
      exact hlater index hm
    · obtain ⟨chain', path', granting', hg, hle⟩ := rest.beside hR hR' hw hu hsorted
      exact ⟨chain', path', granting', .fruitless ha hi hg, hle⟩
  | .through attempted inner =>
    obtain ⟨t', ha, ht⟩ := attempt_parallel hs attempted
    obtain ⟨chain', path', granting', hg, hle⟩ := inner.beside hR hR' hw ht
    refine ⟨_, _, granting', .through ha hg, ?_⟩
    rcases hle with rfl | hlt
    · exact .inl rfl
    · exact .inr (List.cons_lt_cons_iff.mpr (.inr ⟨rfl, hlt⟩))

end

/-- Let direct rules be added at any positions to the definition of the required kind. A check that
was granted is granted with them, through the same chain of conversions or one before it in order of
the positions. Over deterministic functions these chains are conversions that apply one after
another, and the rules the first that apply at their ends. A check that ended without an error still
does. -/
theorem resolveWith_widened (hK : K.Lawful) {b b' : RegistryBuilder κ} {r r' : Resolver K}
    (hb : (b.build K).1 = .ok r.registry) (hb' : (b'.build K).1 = .ok r'.registry)
    (required provided : Role κ) (hw : r.registry.WidensTo origin r'.registry required.kind)
    {t : CycleTracker κ} (ht : t.Reachable K) :
    (∀ rule path, (r.resolveWith required provided t).1 = .ok (.granted rule path) →
      ∃ chain rule' path' chain',
        (∀ other, GrantedBy r.registry required provided ⟨t, [], []⟩ other path rule ↔
          other = chain) ∧
        (r'.resolveWith required provided t).1 = .ok (.granted rule' path') ∧
        (∀ other, GrantedBy r'.registry required provided ⟨t, [], []⟩ other path' rule' ↔
          other = chain') ∧
        (chain' = chain ∨ chain' < chain) ∧
        (r.registry.Deterministic → ∃ w, Chain r.registry provided chain path w ∧
          r.registry.FirstApplies required w rule) ∧
        (r'.registry.Deterministic → ∃ w, Chain r'.registry provided chain' path' w ∧
          r'.registry.FirstApplies required w rule')) ∧
    ∀ resolution, (r.resolveWith required provided t).1 = .ok resolution →
      ∃ resolution', (r'.resolveWith required provided t).1 = .ok resolution' := by
  have hR := Registry.complete_of_build hK hb
  have hR' := Registry.complete_of_build hK hb'
  have hs : Parallel origin (⟨t, [], []⟩ : Session κ) ⟨t, [], []⟩ := ⟨rfl, rfl⟩
  obtain ⟨examined, finding, s₁, he, hr, -, -⟩ :=
    resolveWith_explores hK hR required provided (ht.nodup hK)
  obtain ⟨examined', finding', s₁', he', hr', -, -⟩ :=
    resolveWith_explores hK hR' required provided (ht.nodup hK)
  have hgrants : ∀ chain path rule, GrantedBy r'.registry required provided ⟨t, [], []⟩ chain path
      rule → (r'.resolveWith required provided t).1 = .ok (.granted rule path) := by
    intro chain path rule hg
    obtain ⟨_, _, hexplores⟩ := hg.explores
    rw [hr', Finding.resolution_eq_granted]
    exact (he'.unique hexplores).1
  constructor
  · intro rule path h
    rw [hr, Finding.resolution_eq_granted] at h
    obtain ⟨chain, hg⟩ := he.grantedBy hR h
    obtain ⟨chain', path', rule', hg', hle⟩ := hg.beside hR hR' hw hs
    exact ⟨chain, rule', path', chain', hg.iff_eq, hgrants chain' path' rule' hg', hg'.iff_eq,
      hle, fun hdet ↦ hg.exists_chain hR hdet, fun hdet ↦ hg'.exists_chain hR' hdet⟩
  · intro resolution h
    rcases he.beside hR hR' hw hs with ⟨chain, path, rule, hg⟩ | ⟨_, _, hsame, -⟩
    · exact ⟨_, hgrants chain path rule hg⟩
    · rw [hr', (he'.unique hsame).1, ← hr]
      exact ⟨resolution, h⟩

end Resolver

namespace Rank

/-- Owners ask predicates, and let some ranks pass. Members are converted into guests before they
are converted into editors. -/
def panel (passes : List Rank) (delegated : List (DelegatedPredicate Rank)) :
    RegistryBuilder Rank where
  definitions := [
    RoleDefinition.ofKind guest,
    { RoleDefinition.ofKind member with conversions := [always guest, always editor] },
    RoleDefinition.ofKind editor,
    RoleDefinition.ofKind admin,
    { RoleDefinition.ofKind owner with passes, delegated }]

/-- The functions of a panel are deterministic when its predicates are. -/
theorem deterministic_panel {passes : List Rank} {delegated : List (DelegatedPredicate Rank)}
    (h : ∀ rule ∈ delegated, Predicate.Deterministic rule.predicate) :
    Registry.Deterministic (K := kinds) ⟨(panel passes delegated).definitions⟩ := by
  intro d hd
  simp only [panel, List.mem_cons, List.not_mem_nil, or_false] at hd
  constructor
  · rcases hd with rfl | rfl | rfl | rfl | rfl
    · simp [RoleDefinition.ofKind]
    · simp [RoleDefinition.ofKind]
    · simp [RoleDefinition.ofKind]
    · simp [RoleDefinition.ofKind]
    · exact h
  · rcases hd with rfl | rfl | rfl | rfl | rfl <;>
      simp [RoleDefinition.ofKind, Conversion.Deterministic, always]

/-- A predicate about editors that answers true. -/
def trusting : DelegatedPredicate Rank := ⟨editor, [], fun _ _ _ ↦ true⟩

/-- A predicate about guests that answers false. -/
def gruff : DelegatedPredicate Rank := ⟨guest, [], fun _ _ _ ↦ false⟩

/-- A member is granted as an owner after the conversion into an editor. When owners let guests pass
as well, and ask another predicate before, the member is granted already as a guest. -/
theorem panel_widened :
    ∃ (r r' : Resolver kinds) (origin : Nat → Option Nat), kinds.Lawful ∧
      ((panel [] [trusting]).build kinds).1 = .ok r.registry ∧
      ((panel [guest] [gruff, trusting]).build kinds).1 = .ok r'.registry ∧
      r.registry.WidensTo origin r'.registry owner ∧ CycleTracker.Reachable kinds ⟨[admin]⟩ ∧
      (r.resolveWith (.unit owner) (.unit member) ⟨[admin]⟩).1 =
        .ok (.granted (.delegatedPredicate 0) [editor]) ∧
      (r'.resolveWith (.unit owner) (.unit member) ⟨[admin]⟩).1 =
        .ok (.granted .unconditionalPass [guest]) ∧
      ∃ chain rule' path' chain',
        (r'.resolveWith (.unit owner) (.unit member) ⟨[admin]⟩).1 = .ok (.granted rule' path') ∧
        (chain' = chain ∨ chain' < chain) ∧
        (∃ w, Chain r.registry (.unit member) chain [editor] w ∧
          r.registry.FirstApplies (.unit owner) w (.delegatedPredicate 0)) ∧
        ∃ w, Chain r'.registry (.unit member) chain' path' w ∧
          r'.registry.FirstApplies (.unit owner) w rule' := by
  let r : Resolver kinds := ⟨⟨(panel [] [trusting]).definitions⟩, {}⟩
  let r' : Resolver kinds := ⟨⟨(panel [guest] [gruff, trusting]).definitions⟩, {}⟩
  have hb : ((panel [] [trusting]).build kinds).1 = .ok r.registry := rfl
  have hb' : ((panel [guest] [gruff, trusting]).build kinds).1 = .ok r'.registry := rfl
  have hdet : r.registry.Deterministic :=
    deterministic_panel (by simp [Predicate.Deterministic, trusting])
  have hdet' : r'.registry.Deterministic :=
    deterministic_panel (by simp [Predicate.Deterministic, trusting, gruff])
  have hd : r.registry.lookup owner =
      .ok { RoleDefinition.ofKind owner with delegated := [trusting] } := rfl
  have hd' : r'.registry.lookup owner =
      .ok { RoleDefinition.ofKind owner with
        passes := [guest], delegated := [gruff, trusting] } := rfl
  have hconversions : ∀ other d d', r.registry.lookup other = .ok d →
      r'.registry.lookup other = .ok d' → d'.conversions = d.conversions := by
    intro other d d' hd hd'
    cases other <;> cases hd <;> cases hd' <;> rfl
  obtain ⟨origin, hw⟩ := Registry.exists_widensTo hdet hd hd' (List.nil_subset _)
    (List.nil_subset _) (List.sublist_cons_self gruff [trusting]) hconversions
  have ht : CycleTracker.Reachable kinds ⟨[admin]⟩ := .enter admin .fresh
  have hg : (r.resolveWith (.unit owner) (.unit member) ⟨[admin]⟩).1 =
      .ok (.granted (.delegatedPredicate 0) [editor]) := rfl
  obtain ⟨hgranted, -⟩ :=
    Resolver.resolveWith_widened lawful_kinds hb hb' (.unit owner) (.unit member) hw ht
  obtain ⟨chain, rule', path', chain', -, hg', -, hle, hchain, hchain'⟩ := hgranted _ _ hg
  exact ⟨r, r', origin, lawful_kinds, hb, hb', hw, ht, hg, rfl, chain, rule', path', chain', hg',
    hle, hchain hdet, hchain' hdet'⟩

end Rank
end RoleResolution
