import RoleResolution.Proofs.Chain
import RoleResolution.Proofs.Search.Session

/-!
# Finished searches

A search is described without any bound on its depth: which roles it examines, in order, what
it finds and what session it leaves. A role is first inspected by itself; if its kind is
entered, its conversions are attempted one by one, each with the whole search from its result.
-/

namespace RoleResolution

variable {κ : Type}

/-- What a search finds. -/
abbrev Finding (κ : Type) := Except (Failure (CycleError κ)) (Option (MatchedRule × List κ))

/-- What the inspection of a role comes to. -/
inductive Verdict (κ : Type) where
  /-- The search from the role ends with it. -/
  | settled (finding : Finding κ)
  /-- The kind of the role was entered; the conversions of its definition come next. -/
  | entered (d : RoleDefinition κ)

/-- A finding after a conversion into a kind, seen from the role before the conversion. -/
def Finding.after (kind : κ) : Finding κ → Finding κ
  | .ok (some (rule, path)) => .ok (some (rule, kind :: path))
  | .ok none => .ok none
  | .error failure => .error failure

/-- The outcome of a check whose search ends with a finding. -/
def Finding.resolution : Finding κ → Except (Failure (CycleError κ)) (Resolution κ)
  | .ok (some (rule, path)) => .ok (.granted rule path)
  | .ok none => .ok .denied
  | .error failure => .error failure

/-- A check fails as its search does. -/
theorem Finding.resolution_eq_error {finding : Finding κ} {failure : Failure (CycleError κ)} :
    finding.resolution = .error failure ↔ finding = .error failure := by
  rcases finding with failure' | _ | ⟨rule, path⟩
  · exact ⟨fun h ↦ congrArg _ (Except.error.inj h), fun h ↦ congrArg _ (Except.error.inj h)⟩
  · exact ⟨nofun, nofun⟩
  · exact ⟨nofun, nofun⟩

/-- A check grants by what its search finds. -/
theorem Finding.resolution_eq_granted {finding : Finding κ} {rule : MatchedRule} {path : List κ} :
    finding.resolution = .ok (.granted rule path) ↔ finding = .ok (some (rule, path)) := by
  rcases finding with failure | _ | ⟨rule', path'⟩
  · exact ⟨nofun, nofun⟩
  · exact ⟨nofun, nofun⟩
  · constructor <;> rintro ⟨⟩ <;> rfl

/-- A grant after a conversion is a grant by what comes after it. -/
theorem Finding.after_eq_granted {kind : κ} {finding : Finding κ} {rule : MatchedRule}
    {path : List κ} :
    finding.after kind = .ok (some (rule, path)) ↔
      ∃ rest, path = kind :: rest ∧ finding = .ok (some (rule, rest)) := by
  rcases finding with failure | _ | ⟨rule', rest⟩
  · exact ⟨nofun, nofun⟩
  · exact ⟨nofun, nofun⟩
  · constructor
    · rintro ⟨⟩
      exact ⟨rest, rfl, rfl⟩
    · rintro ⟨_, rfl, ⟨⟩⟩
      rfl

namespace Resolver

/-- Invoke a conversion of a role: the role that it gives, if any. -/
def attempt (owner : κ) (provided : Role κ) (rule : ConversionRule κ) (index : Nat)
    (s : Session κ) : Option (Role κ) × Session κ :=
  let answer := rule.conversion s.history provided.payload
  let s := s.record (.conversion owner index provided.payload answer)
  match answer with
  | none => (none, s.report (.conversionDeclined provided.kind rule.targetKind))
  | some payload =>
    let converted : Role κ := ⟨rule.targetKind, payload⟩
    (some converted, s.report (.roleConverted provided converted))

/-- An attempt leaves the tracker and invokes its conversion rule. -/
theorem attempt_frame {owner : κ} {provided : Role κ} {rule : ConversionRule κ} {index : Nat}
    {s s₁ : Session κ} {converted? : Option (Role κ)}
    (h : attempt owner provided rule index s = (converted?, s₁)) :
    s₁.tracker = s.tracker ∧ s₁.conversionCalls = s.conversionCalls ++ [(owner, index)] := by
  unfold attempt at h
  dsimp only at h
  split at h <;> cases h <;> simp [Invocation.conversionRule?]

/-- Trying conversions is attempting the first and searching from its result before the rest. -/
theorem tryConversions_cons (search : SearchFrom κ) (owner : κ) (provided : Role κ)
    (rule : ConversionRule κ) (index : Nat) (rules : List (ConversionRule κ × Nat))
    (s : Session κ) :
    tryConversions search owner provided ((rule, index) :: rules) s =
      match attempt owner provided rule index s with
      | (none, s) => tryConversions search owner provided rules s
      | (some converted, s) =>
        match search converted s with
        | (.ok none, s) => tryConversions search owner provided rules s
        | (finding, s) => (Finding.after converted.kind finding, s) := by
  simp only [tryConversions, attempt]
  cases rule.conversion s.history provided.payload with
  | none => rfl
  | some payload =>
    dsimp only
    split
    · next h => rw [h]; rfl
    · next h => rw [h]
    · next h => rw [h]; rfl

variable [DecidableEq κ] {K : KindSet κ}

/-- Examine a role by itself: try the direct rules, then enter its kind. -/
def inspect (R : Registry K) (required provided : Role κ) (s : Session κ) :
    Verdict κ × Session κ :=
  match matchDirect R required provided s with
  | (.error failure, s) => (.settled (.error failure), s)
  | (.ok (some rule), s) =>
    (.settled (.ok (some (rule, []))), s.report (.directRuleMatched provided rule))
  | (.ok none, s) =>
    match R.lookup provided.kind with
    | .error fault => (.settled (.error (.fault fault)), s)
    | .ok d =>
      if d.conversions.isEmpty then (.settled (.ok none), s)
      else match s.tracker.enter K provided.kind with
        | (.error failure, t) => (.settled (.error failure), s.track t)
        | (.ok (), t) => (.entered d, s.track t)

/-- Examining a role is inspecting it and then trying the conversions of an entered kind. -/
theorem examine_eq (R : Registry K) (required : Role κ) (search : SearchFrom κ)
    (provided : Role κ) (s : Session κ) :
    examine R required search provided s =
      match inspect R required provided s with
      | (.settled finding, s) => (finding, s)
      | (.entered d, s) => tryConversions search d.kind provided d.conversions.zipIdx s := by
  unfold examine inspect
  rcases matchDirect R required provided s with ⟨failure | rule?, s₁⟩
  · rfl
  · cases rule? with
    | some rule => rfl
    | none =>
      dsimp only
      cases R.lookup provided.kind with
      | error fault => rfl
      | ok d =>
        dsimp only
        split
        · rfl
        · rcases s₁.tracker.enter K provided.kind with ⟨failure | _, t⟩ <;> rfl

/-- The ways in which the inspection of a role ends, with all that they say of the role and of
the sessions before and after. -/
inductive Inspected (R : Registry K) (required provided : Role κ) (s s' : Session κ) :
    Verdict κ → Prop where
  /-- A direct rule grants the role. -/
  | granted {rule : MatchedRule}
      (matched : (matchDirect R required provided s).1 = .ok (some rule))
      (tracker : s'.tracker = s.tracker) :
      Inspected R required provided s s' (.settled (.ok (some (rule, []))))
  /-- The kind of the role has no conversions. -/
  | barren (unmatched : (matchDirect R required provided s).1 = .ok none)
      (unconverted : ¬ R.Converts provided.kind) (tracker : s'.tracker = s.tracker) :
      Inspected R required provided s s' (.settled (.ok none))
  /-- The kind of the role was entered before. -/
  | repeated (unmatched : (matchDirect R required provided s).1 = .ok none)
      (converts : R.Converts provided.kind) (visited : provided.kind ∈ s.tracker.visited)
      (tracker : s'.tracker = s.tracker) :
      Inspected R required provided s s'
        (.settled (.error (.error ⟨provided.kind, s.tracker.visited ++ [provided.kind]⟩)))
  /-- More kinds are entered than are listed. -/
  | overrun (fresh : provided.kind ∉ s.tracker.visited)
      (full : K.count < (s.tracker.visited ++ [provided.kind]).length) :
      Inspected R required provided s s' (.settled (.error (.fault .chainOverrun)))
  /-- The kind of the role is entered. -/
  | entered {d : RoleDefinition κ}
      (unmatched : (matchDirect R required provided s).1 = .ok none)
      (lookup : R.lookup provided.kind = .ok d) (converts : d.conversions ≠ [])
      (fresh : provided.kind ∉ s.tracker.visited)
      (tracker : s'.tracker.visited = s.tracker.visited ++ [provided.kind]) :
      Inspected R required provided s s' (.entered d)

/-- Over a complete registry an inspection ends in one of these ways. -/
theorem inspected {R : Registry K} (hR : R.Complete) (required provided : Role κ)
    (s : Session κ) :
    Inspected R required provided s (inspect R required provided s).2
      (inspect R required provided s).1 := by
  obtain ⟨rule?, hm⟩ := matchDirect_total hR required provided s
  obtain ⟨d, hd, -⟩ := hR provided.kind
  have ht := (matchDirect_frame R required provided s).1
  unfold inspect
  cases hp : matchDirect R required provided s with
  | mk answer s₁ =>
    rw [hp] at hm ht
    dsimp only at hm ht
    subst hm
    cases rule? with
    | some rule => exact .granted (by rw [hp]) ht
    | none =>
      simp only [hd]
      split
      · next he =>
        have hc : d.conversions = [] := List.isEmpty_iff.mp he
        refine .barren (by rw [hp]) ?_ ht
        rintro ⟨e, hl, hne⟩
        rw [hd] at hl
        cases hl
        exact hne hc
      · next he =>
        have hc : d.conversions ≠ [] := fun h ↦ he (List.isEmpty_iff.mpr h)
        rw [ht]
        by_cases hv : provided.kind ∈ s.tracker.visited
        · rw [CycleTracker.enter_visited hv]
          exact .repeated (by rw [hp]) ⟨d, hd, hc⟩ hv rfl
        · by_cases hl : s.tracker.visited.length < K.count
          · rw [CycleTracker.enter_fresh hv hl]
            exact .entered (by rw [hp]) hd hc hv rfl
          · rw [CycleTracker.enter_full hv (Nat.not_lt.mp hl)]
            refine .overrun hv ?_
            rw [List.length_append, List.length_singleton]
            omega

/-- Inspecting a role invokes no conversion. -/
theorem inspect_conversionCalls (R : Registry K) (required provided : Role κ)
    (s : Session κ) :
    (inspect R required provided s).2.conversionCalls = s.conversionCalls := by
  have h := (matchDirect_frame R required provided s).2
  unfold inspect
  rcases hp : matchDirect R required provided s with ⟨failure | rule?, s₁⟩
  · rwa [hp] at h
  · rw [hp] at h
    cases rule? with
    | some rule => exact h
    | none =>
      dsimp only
      cases R.lookup provided.kind with
      | error fault => exact h
      | ok d =>
        dsimp only
        split
        · exact h
        · rcases s₁.tracker.enter K provided.kind with ⟨failure | _, t⟩ <;> exact h

/-! ### Searches that end -/

mutual

/-- A search from a role ends: with the roles examined, the finding and the session left. -/
inductive Explores (R : Registry K) (required : Role κ) :
    Role κ → Session κ → List (Role κ) → Finding κ → Session κ → Prop where
  | settled {provided : Role κ} {s s' : Session κ} {finding : Finding κ}
      (inspected : inspect R required provided s = (.settled finding, s')) :
      Explores R required provided s [provided] finding s'
  | entered {provided : Role κ} {s s₁ s' : Session κ} {d : RoleDefinition κ}
      {examined : List (Role κ)} {finding : Finding κ}
      (inspected : inspect R required provided s = (.entered d, s₁))
      (tried : ExploresRules R required d.kind provided d.conversions.zipIdx s₁ examined
        finding s') :
      Explores R required provided s (provided :: examined) finding s'

/-- The trial of conversions of a role ends: with the roles examined after them, the finding
and the session left. -/
inductive ExploresRules (R : Registry K) (required : Role κ) :
    κ → Role κ → List (ConversionRule κ × Nat) → Session κ → List (Role κ) → Finding κ →
      Session κ → Prop where
  | done {owner : κ} {provided : Role κ} {s : Session κ} :
      ExploresRules R required owner provided [] s [] (.ok none) s
  | declined {owner : κ} {provided : Role κ} {rule : ConversionRule κ} {index : Nat}
      {rules : List (ConversionRule κ × Nat)} {s s₁ s' : Session κ}
      {examined : List (Role κ)} {finding : Finding κ}
      (attempted : attempt owner provided rule index s = (none, s₁))
      (rest : ExploresRules R required owner provided rules s₁ examined finding s') :
      ExploresRules R required owner provided ((rule, index) :: rules) s examined finding s'
  | fruitless {owner : κ} {provided converted : Role κ} {rule : ConversionRule κ}
      {index : Nat} {rules : List (ConversionRule κ × Nat)} {s s₁ s₂ s' : Session κ}
      {examined later : List (Role κ)} {finding : Finding κ}
      (attempted : attempt owner provided rule index s = (some converted, s₁))
      (inner : Explores R required converted s₁ examined (.ok none) s₂)
      (rest : ExploresRules R required owner provided rules s₂ later finding s') :
      ExploresRules R required owner provided ((rule, index) :: rules) s (examined ++ later)
        finding s'
  | decided {owner : κ} {provided converted : Role κ} {rule : ConversionRule κ}
      {index : Nat} {rules : List (ConversionRule κ × Nat)} {s s₁ s' : Session κ}
      {examined : List (Role κ)} {finding : Finding κ}
      (attempted : attempt owner provided rule index s = (some converted, s₁))
      (inner : Explores R required converted s₁ examined finding s')
      (decisive : finding ≠ .ok none) :
      ExploresRules R required owner provided ((rule, index) :: rules) s examined
        (finding.after converted.kind) s'

end

/-- The first of the rules from a position on is the rule at that position. -/
theorem zipIdx_drop_cons {α : Type} {xs : List α} {x : α} {index n : Nat}
    {rest : List (α × Nat)} (h : (x, index) :: rest = (xs.drop n).zipIdx n) :
    xs[n]? = some x ∧ index = n ∧ rest = (xs.drop (n + 1)).zipIdx (n + 1) := by
  have hn : n < xs.length := by
    by_contra hl
    rw [List.drop_of_length_le (by omega)] at h
    cases h
  rw [List.drop_eq_getElem_cons hn, List.zipIdx_cons] at h
  cases h
  exact ⟨List.getElem?_eq_getElem hn, rfl, rfl⟩

/-! ### Resolutions -/

omit [DecidableEq κ] in
/-- Over a complete registry it is known of every check whether it is logged. -/
theorem logsCheck_total {r : Resolver K} (hR : r.registry.Complete) (required provided : κ) :
    ∃ full, r.logsCheck required provided = .ok full := by
  have hl : ∀ kind, ∃ full, r.logs kind = .ok full := by
    intro kind
    obtain ⟨d, hd, -⟩ := hR kind
    unfold logs
    split
    · exact ⟨true, rfl⟩
    · exact ⟨d.logging, by rw [hd]; rfl⟩
  obtain ⟨asked, ha⟩ := hl required
  obtain ⟨offered, ho⟩ := hl provided
  unfold logsCheck
  rw [ha]
  cases asked with
  | true => exact ⟨true, rfl⟩
  | false => exact ⟨offered, ho⟩

/-- A resolution is what the search finds, in the session that the search leaves but for an
event. -/
theorem resolveIn_search {r : Resolver K} (hR : r.registry.Complete)
    (required provided : Role κ) (s : Session κ) :
    (r.resolveIn required provided s).1 =
        Finding.resolution (search r.registry required provided s).1 ∧
      (r.resolveIn required provided s).2.tracker =
        (search r.registry required provided s).2.tracker ∧
      (r.resolveIn required provided s).2.history =
        (search r.registry required provided s).2.history := by
  obtain ⟨full, hf⟩ := logsCheck_total hR required.kind provided.kind
  unfold resolveIn
  rcases search r.registry required provided s with ⟨failure | found, s'⟩
  · exact ⟨rfl, rfl, rfl⟩
  · rw [hf]
    cases found <;> cases full <;> exact ⟨rfl, rfl, rfl⟩

end Resolver
end RoleResolution
