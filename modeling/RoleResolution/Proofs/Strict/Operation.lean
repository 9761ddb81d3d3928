import RoleResolution.Proofs.Conversion.Reach
import RoleResolution.Proofs.Outcome.Bound
import RoleResolution.Proofs.Outcome.Candidates
import RoleResolution.Proofs.Strict.Counting

/-!
# Runs without faults

A caller looks kinds up, makes roles, asks the conversion graph, checks roles and enters kinds, in
any order and with one tracker that the checks share. It goes on after an error, with whatever the
error has left in the tracker; only a fault would end the run. No operation records a kind twice in
the shared tracker, so over a lawful kind set it has room for every kind, and no fault arises.
-/

namespace RoleResolution

variable {κ : Type}

/-- What a caller does with a resolver. -/
inductive Operation (κ : Type) where
  | lookup (kind : κ)
  | role (kind : κ) (payload : Payload)
  | reachable (source : κ)
  | detectCycles
  /-- Resolve a check with a tracker of its own. -/
  | resolve (required provided : Role κ)
  | anySatisfies (held : List (Role κ)) (required : Role κ)
  /-- Enter a kind with the shared tracker. -/
  | enter (kind : κ)
  /-- Resolve a check with the shared tracker. -/
  | resolveWith (required provided : Role κ)

namespace Operation

/-- Go on after an answer or an error, but not after a fault. -/
def proceed {ε α : Type} (answer : Except (Failure ε) α) (s : Session κ) :
    Except Fault (Session κ) :=
  match answer with
  | .error (.fault fault) => .error fault
  | _ => .ok s

/-- What is no fault can be gone on after. -/
theorem proceed_ok {ε α : Type} {answer : Except (Failure ε) α} (s : Session κ)
    (h : ∀ fault, answer ≠ .error (.fault fault)) : proceed answer s = .ok s := by
  rcases answer with (e | fault) | a
  · rfl
  · exact absurd rfl (h fault)
  · rfl

variable [DecidableEq κ] {K : KindSet κ}

/-- Carry out an operation, going on with a session whose tracker is the shared one. -/
def run (r : Resolver K) (s : Session κ) : Operation κ → Except Fault (Session κ)
  | lookup kind => (r.registry.lookup kind).map fun _ ↦ s
  | role kind payload =>
    let made := r.registry.role kind payload
    proceed made.1 { s with events := s.events ++ made.2 }
  | reachable source => (r.registry.graph.reachable K source).map fun _ ↦ s
  | detectCycles => (r.registry.graph.detectCycles K).map fun _ ↦ s
  | resolve required provided =>
    let outcome := r.resolveIn required provided (s.track {})
    proceed outcome.1 (outcome.2.track s.tracker)
  | anySatisfies held required =>
    let outcome := r.anySatisfiesIn required held.zipIdx s
    proceed outcome.1 (outcome.2.track s.tracker)
  | enter kind =>
    let entered := s.tracker.enter K kind
    proceed entered.1 (s.track entered.2)
  | resolveWith required provided =>
    let outcome := r.resolveIn required provided s
    proceed outcome.1 outcome.2

/-- Carry out operations one after another, up to the first fault. -/
def perform (r : Resolver K) (operations : List (Operation κ)) (s : Session κ) :
    Except Fault (Session κ) :=
  operations.foldlM (run r) s

end Operation

namespace Registry

variable {K : KindSet κ} {R : Registry K}

/-- Making a role over a complete registry ends without a fault. -/
theorem role_ne_fault (hR : R.Complete) (kind : κ) (payload : Payload) (fault : Fault) :
    (R.role kind payload).1 ≠ .error (.fault fault) := by
  obtain ⟨d, hd, -⟩ := hR kind
  unfold role
  rw [hd]
  dsimp only
  split <;> nofun

variable [DecidableEq κ]

/-- The graph of a registry that was built is asked without a fault, the same with every access
checked. -/
theorem graph_agree (hK : K.Lawful) {b : RegistryBuilder κ} (hb : (b.build K).1 = .ok R) :
    (∀ source, ∃ reached, Strict.reachable K R.graph source = .ok reached ∧
      R.graph.reachable K source = .ok reached) ∧
    ∃ cycles, Strict.detectCycles K R.graph = .ok cycles ∧ R.graph.detectCycles K = .ok cycles := by
  constructor
  · intro source
    obtain ⟨reached, hstrict, hr, -⟩ :=
      ConversionGraph.reachable_ok hK (length_edges_of_build hb) source
    exact ⟨reached, hstrict, hr⟩
  · obtain ⟨cycles, hc⟩ :=
      detectCycles_of_arrange (build_ok hb).1 (Nat.le_of_eq hK.counted.symm)
    exact ⟨cycles, (Strict.detectCycles_eq R.graph).trans hc, hc⟩

end Registry

namespace Operation

variable [DecidableEq κ] {K : KindSet κ} {r : Resolver K} {s : Session κ}

/-- An operation over a registry that was built does not fault while the shared tracker has no
repetition, and leaves it without one. -/
theorem run_ok (hK : K.Lawful) {b : RegistryBuilder κ} (hb : (b.build K).1 = .ok r.registry)
    (hn : s.tracker.visited.Nodup) (operation : Operation κ) :
    ∃ s', operation.run r s = .ok s' ∧ s'.tracker.visited.Nodup := by
  have hR := Registry.complete_of_build hK hb
  obtain ⟨hreachable, cycles, -, hcycles⟩ := Registry.graph_agree hK hb
  cases operation with
  | lookup kind =>
    obtain ⟨d, hd, -⟩ := hR kind
    exact ⟨s, by rw [run, hd]; rfl, hn⟩
  | role kind payload => exact ⟨_, proceed_ok _ (Registry.role_ne_fault hR kind payload), hn⟩
  | reachable source =>
    obtain ⟨reached, -, hr⟩ := hreachable source
    exact ⟨s, by rw [run, hr]; rfl, hn⟩
  | detectCycles => exact ⟨s, by rw [run, hcycles]; rfl, hn⟩
  | resolve required provided =>
    have hfresh : (s.track {}).tracker.visited.Nodup := List.nodup_nil
    obtain ⟨hf, -⟩ := Resolver.resolveIn_sound hK hR required provided hfresh
    exact ⟨_, proceed_ok _ hf, hn⟩
  | anySatisfies held required =>
    obtain ⟨examined, left, answers, -, hchecks, hc⟩ :=
      Resolver.anySatisfiesIn_checks r required held 0 s
    exact ⟨_, proceed_ok _ (hc.ne_fault (hchecks.ne_fault hK hR)), hn⟩
  | enter kind =>
    exact ⟨_, proceed_ok _ (CycleTracker.enter_ne_fault hK hn kind),
      CycleTracker.nodup_enter hn kind⟩
  | resolveWith required provided =>
    obtain ⟨hf, hn'⟩ := Resolver.resolveIn_sound hK hR required provided hn
    exact ⟨_, proceed_ok _ hf, hn'⟩

/-- Operations over a registry that was built do not fault. -/
theorem perform_ok (hK : K.Lawful) {b : RegistryBuilder κ} (hb : (b.build K).1 = .ok r.registry)
    (operations : List (Operation κ)) (hn : s.tracker.visited.Nodup) :
    ∃ s', perform r operations s = .ok s' ∧ s'.tracker.visited.Nodup := by
  induction operations generalizing s with
  | nil => exact ⟨s, rfl, hn⟩
  | cons operation rest ih =>
    obtain ⟨s₁, h₁, hn₁⟩ := run_ok hK hb hn operation
    obtain ⟨s', h', hn'⟩ := ih hn₁
    refine ⟨s', ?_, hn'⟩
    rw [perform, List.foldlM_cons, h₁]
    exact h'

/-- Over any kind set a build comes out the same when every access to a table is checked. None
faults when the number of kinds is the length of the list, and there is no other kind set of which
this holds, unless a listed kind misreports its index. Once a registry is built over an ordered set,
questions to the conversion graph come out the same with every access checked, and whatever
operations follow one another with a shared tracker that was fresh at first, none of them faults. -/
theorem no_fault (K : KindSet κ) :
    (∀ b : RegistryBuilder κ, Strict.build K b = b.build K) ∧
    (K.count = K.all.length → ∀ (b : RegistryBuilder κ) fault,
      (b.build K).1 ≠ .error (.fault fault)) ∧
    ((∀ config definitions fault,
      (Registry.build K config definitions).1 ≠ .error (.fault fault)) ↔
      K.count = K.all.length ∨ ∃ i kind, K.all[i]? = some kind ∧ K.index kind ≠ i) ∧
    (K.Ordered → ∀ (b : RegistryBuilder κ) (r : Resolver K), (b.build K).1 = .ok r.registry →
      (∀ source, Strict.reachable K r.registry.graph source =
        r.registry.graph.reachable K source) ∧
      Strict.detectCycles K r.registry.graph = r.registry.graph.detectCycles K ∧
      ∀ operations history events, ∃ s, perform r operations ⟨{}, history, events⟩ = .ok s) := by
  refine ⟨Strict.build_eq, fun hc b ↦ b.build_ne_fault (.inl hc), Registry.build_ne_fault_iff, ?_⟩
  intro hordered b r hb
  have hK := Registry.lawful_of_build hordered hb
  obtain ⟨hreachable, cycles, hstrict, hcycles⟩ := Registry.graph_agree hK hb
  refine ⟨fun source ↦ ?_, hstrict.trans hcycles.symm, fun operations history events ↦ ?_⟩
  · obtain ⟨reached, hs, hr⟩ := hreachable source
    exact hs.trans hr.symm
  · have hn : (⟨{}, history, events⟩ : Session κ).tracker.visited.Nodup := List.nodup_nil
    obtain ⟨s, hs, -⟩ := perform_ok hK hb operations hn
    exact ⟨s, hs⟩

end Operation

namespace Rank

/-- On the ladder with a way back the shared tracker fills up, through checks that end in cycles and
kinds entered by hand. The operations after that go on without a fault, as does every build. -/
theorem operations_on_loop :
    let operations : List (Operation Rank) := [
      .enter owner, .resolveWith (.unit owner) (.unit member), .enter owner, .detectCycles,
      .enter editor, .reachable guest, .enter admin, .resolveWith (.unit admin) (.unit owner),
      .anySatisfies [.unit owner, .unit guest] (.unit member), .role guest .unit,
      .resolve (.unit guest) (.unit admin), .lookup owner, .enter guest]
    kinds.Lawful ∧ ((builder [always member]).build kinds).1 = .ok (ladder [always member]) ∧
      (∀ (b : RegistryBuilder Rank) fault, (b.build kinds).1 ≠ .error (.fault fault)) ∧
      (∃ s, Operation.perform (resolver [always member]) operations {} = .ok s) ∧
      (Operation.perform (resolver [always member]) operations {}).map (·.tracker.visited) =
        .ok [owner, member, guest, editor, admin] := by
  intro operations
  obtain ⟨-, hbuild, -, hrun⟩ := Operation.no_fault kinds
  obtain ⟨-, -, hperform⟩ := hrun lawful_kinds.toOrdered (builder [always member])
    (resolver [always member]) build_loop
  exact ⟨lawful_kinds, build_loop, hbuild lawful_kinds.counted, hperform operations [] [], rfl⟩

/-- The ranks under another number of kinds. -/
def miscounted (count : Nat) : KindSet Rank := { kinds with count := count }

/-- The ladder does not stand on a wrong number, although every rank is listed at its index. With
one too many there is a place that the list has no rank for, and with one too few there is a listed
rank, the highest, that the conversion graph has no place for. -/
theorem miscounted_fault :
    (miscounted 6).Ordered ∧ (miscounted 4).Ordered ∧
      (Registry.build (miscounted 6) {} (builder []).definitions).1 =
        .error (.fault .indexOutOfRange) ∧
      (Registry.build (miscounted 4) {} ((builder []).definitions.take 4)).1 =
        .error (.fault .indexOutOfRange) :=
  ⟨⟨lawful_kinds.listed, lawful_kinds.placed⟩, ⟨lawful_kinds.listed, lawful_kinds.placed⟩, rfl,
    rfl⟩

end Rank
end RoleResolution
