import RoleResolution.Proofs.Search.Exploration

/-!
# What a search reports

The events of a session are a log that is only appended to. A search appends to it events of the
lowest level only, whatever it finds and however it ends. So what a caller reads above that level
comes from the checks and not from the searches.
-/

namespace RoleResolution

variable {κ : Type}

/-- A session goes on from another and reports nothing but trace events. -/
def Session.TracesTo (s s' : Session κ) : Prop :=
  ∃ added, s'.events = s.events ++ added ∧ ∀ e ∈ added, e.level = .trace

namespace Session.TracesTo

variable {s s' s'' : Session κ}

/-- Nothing is reported between sessions with the same events. -/
theorem of_eq (h : s'.events = s.events) : s.TracesTo s' :=
  ⟨[], by rw [h, List.append_nil], nofun⟩

/-- A trace event is reported. -/
theorem report {e : Event κ} (h : e.level = .trace) : s.TracesTo (s.report e) :=
  ⟨[e], rfl, List.forall_mem_singleton.mpr h⟩

/-- Trace events are reported one after another. -/
theorem trans (h : s.TracesTo s') (h' : s'.TracesTo s'') : s.TracesTo s'' := by
  obtain ⟨added, he, hadded⟩ := h
  obtain ⟨later, he', hlater⟩ := h'
  refine ⟨added ++ later, ?_, List.forall_mem_append.mpr ⟨hadded, hlater⟩⟩
  rw [he', he, List.append_assoc]

end Session.TracesTo

namespace Resolver

/-- An attempt reports whether the conversion gave a role. -/
theorem attempt_traces (owner : κ) (provided : Role κ) (rule : ConversionRule κ) (index : Nat)
    (s : Session κ) : s.TracesTo (attempt owner provided rule index s).2 := by
  have hrecorded : s.TracesTo (s.record (.conversion owner index provided.payload
      (rule.conversion s.history provided.payload))) := .of_eq rfl
  unfold attempt
  dsimp only
  split
  · exact hrecorded.trans (.report rfl)
  · exact hrecorded.trans (.report rfl)

/-- A search function reports nothing but trace events. -/
def Traces (search : SearchFrom κ) : Prop :=
  ∀ (provided : Role κ) (s : Session κ), s.TracesTo (search provided s).2

/-- Trying conversions reports nothing but trace events. -/
theorem tryConversions_traces {search : SearchFrom κ} (h : Traces search) (owner : κ)
    (provided : Role κ) (rules : List (ConversionRule κ × Nat)) (s : Session κ) :
    s.TracesTo (tryConversions search owner provided rules s).2 := by
  induction rules generalizing s with
  | nil => exact .of_eq rfl
  | cons entry rest ih =>
    obtain ⟨rule, index⟩ := entry
    rw [tryConversions_cons]
    have hattempt := attempt_traces owner provided rule index s
    generalize attempt owner provided rule index s = attempted at hattempt ⊢
    obtain ⟨_ | converted, s₁⟩ := attempted
    · exact hattempt.trans (ih s₁)
    · have hsearch := hattempt.trans (h converted s₁)
      dsimp only
      generalize search converted s₁ = found at hsearch ⊢
      obtain ⟨failure | _ | _, s₂⟩ := found
      · exact hsearch
      · exact hsearch.trans (ih s₂)
      · exact hsearch

variable [DecidableEq κ] {K : KindSet κ}

/-- Trying delegated predicates reports nothing but guards that do not hold. -/
theorem firstPredicate_traces (owner : κ) (required provided : Role κ)
    (rules : List (DelegatedPredicate κ × Nat)) (s : Session κ) :
    s.TracesTo (firstPredicate owner required provided rules s).2 := by
  induction rules generalizing s with
  | nil => exact .of_eq rfl
  | cons entry rest ih =>
    obtain ⟨rule, index⟩ := entry
    have hrecorded : s.TracesTo (s.record (.predicate owner index provided.payload
        required.payload (rule.predicate s.history provided.payload required.payload))) :=
      .of_eq rfl
    unfold firstPredicate
    split
    · exact ih s
    · split
      · dsimp only
        split
        · exact hrecorded
        · exact hrecorded.trans (ih _)
      · exact .trans (.report rfl) (ih _)

/-- Trying the direct rules reports nothing but trace events. -/
theorem matchDirect_traces (R : Registry K) (required provided : Role κ) (s : Session κ) :
    s.TracesTo (matchDirect R required provided s).2 := by
  unfold matchDirect
  split
  · exact .of_eq rfl
  · split
    · exact .of_eq rfl
    · next d hd =>
      dsimp only
      unfold matchRules
      split
      · exact .of_eq rfl
      · split
        · exact .of_eq rfl
        · exact firstPredicate_traces d.kind required provided d.delegated.zipIdx s

/-- Inspecting a role reports at most the rule that matched besides. -/
theorem inspect_traces (R : Registry K) (required provided : Role κ) (s : Session κ) :
    s.TracesTo (inspect R required provided s).2 := by
  have hmatch := matchDirect_traces R required provided s
  unfold inspect
  generalize matchDirect R required provided s = matched at hmatch ⊢
  obtain ⟨failure | _ | rule, s₁⟩ := matched
  · exact hmatch
  · dsimp only
    cases R.lookup provided.kind with
    | error fault => exact hmatch
    | ok d =>
      dsimp only
      split
      · exact hmatch
      · rcases s₁.tracker.enter K provided.kind with ⟨failure | _, t⟩ <;> exact hmatch
  · exact hmatch.trans (.report rfl)

/-- Examining a role reports nothing but trace events. -/
theorem examine_traces (R : Registry K) (required : Role κ) {search : SearchFrom κ}
    (h : Traces search) : Traces (examine R required search) := by
  intro provided s
  have hinspect := inspect_traces R required provided s
  rw [examine_eq]
  generalize inspect R required provided s = verdict at hinspect ⊢
  obtain ⟨finding | d, s₁⟩ := verdict
  · exact hinspect
  · exact hinspect.trans (tryConversions_traces h d.kind provided d.conversions.zipIdx s₁)

/-- A search reports nothing but trace events. -/
theorem search_traces (R : Registry K) (required : Role κ) : Traces (search R required) := by
  have hwithin : ∀ hops, Traces (searchWithin R required hops) := by
    intro hops
    induction hops with
    | zero => exact examine_traces R required fun _ _ ↦ .of_eq rfl
    | succ hops ih => exact examine_traces R required ih
  exact hwithin K.count

end Resolver
end RoleResolution
