import RoleResolution.Proofs.DirectRule
import RoleResolution.Proofs.Search.Session

/-!
# What was invoked before a check

The caller's functions see the invocations before a check only through the history of its session.
Functions that ignore these invocations make the check go as if it came first: with the same
answer, and with the same invocations and events after those from before. Every function ignores an
empty history, and a deterministic one ignores any.
-/

namespace RoleResolution

variable {κ : Type} {K : KindSet κ}

/-- A session with invocations and events put before its own. -/
def Session.behind (s : Session κ) (before : History κ) (events : List (Event κ)) : Session κ :=
  ⟨s.tracker, before ++ s.history, events ++ s.events⟩

namespace Session

variable (s : Session κ) (before : History κ) (events : List (Event κ))

/-- An invocation is recorded at the end. -/
theorem record_behind (i : Invocation κ) :
    (s.behind before events).record i = (s.record i).behind before events := by
  simp [record, behind]

/-- An event is reported at the end. -/
theorem report_behind (e : Event κ) :
    (s.behind before events).report e = (s.report e).behind before events := by
  simp [report, behind]

end Session

/-- The answers of a predicate do not depend on some first invocations. -/
def Predicate.Ignores (p : Predicate κ) (before : History κ) : Prop :=
  ∀ (history : History κ) (provided required : Payload),
    p (before ++ history) provided required = p history provided required

/-- The answers of a conversion do not depend on some first invocations. -/
def Conversion.Ignores (c : Conversion κ) (before : History κ) : Prop :=
  ∀ (history : History κ) (payload : Payload), c (before ++ history) payload = c history payload

/-- The caller's functions of a definition ignore some first invocations. -/
structure RoleDefinition.Ignores (d : RoleDefinition κ) (before : History κ) : Prop where
  predicates : ∀ rule ∈ d.delegated, Predicate.Ignores rule.predicate before
  conversions : ∀ rule ∈ d.conversions, Conversion.Ignores rule.conversion before

/-- The caller's functions of a registry ignore some first invocations. -/
def Registry.Ignores (R : Registry K) (before : History κ) : Prop :=
  ∀ d ∈ R.definitions, d.Ignores before

/-- No function depends on an empty history. -/
theorem Registry.ignores_nil (R : Registry K) : R.Ignores [] := fun _ _ ↦
  ⟨fun _ _ _ _ _ ↦ rfl, fun _ _ _ _ ↦ rfl⟩

/-- Deterministic functions depend on no history. -/
theorem Registry.Deterministic.ignores {R : Registry K} (h : R.Deterministic)
    (before : History κ) : R.Ignores before := by
  intro d hd
  constructor
  · intro rule hr history provided required
    rw [(h d hd).predicates rule hr (before ++ history), (h d hd).predicates rule hr history]
  · intro rule hr history payload
    rw [(h d hd).conversions rule hr (before ++ history), (h d hd).conversions rule hr history]

namespace Resolver

variable {before : History κ} {events : List (Event κ)}

/-- A search function goes the same way behind some invocations and events. -/
def Oblivious (before : History κ) (events : List (Event κ)) (search : SearchFrom κ) : Prop :=
  ∀ provided s, search provided (s.behind before events) =
    ((search provided s).1, (search provided s).2.behind before events)

/-- Conversions are tried the same way. -/
theorem tryConversions_behind {search : SearchFrom κ} (h : Oblivious before events search)
    (owner : κ) (provided : Role κ) (rules : List (ConversionRule κ × Nat))
    (hrules : ∀ entry ∈ rules, Conversion.Ignores entry.1.conversion before) (s : Session κ) :
    tryConversions search owner provided rules (s.behind before events) =
      ((tryConversions search owner provided rules s).1,
        (tryConversions search owner provided rules s).2.behind before events) := by
  induction rules generalizing s with
  | nil => rfl
  | cons entry rest ih =>
    obtain ⟨rule, index⟩ := entry
    have hr : rule.conversion (s.behind before events).history provided.payload =
        rule.conversion s.history provided.payload := hrules _ List.mem_cons_self _ _
    have hrest := ih fun entry he ↦ hrules entry (List.mem_cons_of_mem _ he)
    simp only [tryConversions, hr, Session.record_behind, Session.report_behind]
    cases rule.conversion s.history provided.payload with
    | none => exact hrest _
    | some payload =>
      dsimp only
      rw [h]
      rcases search _ _ with ⟨failure | _ | ⟨rule', path⟩, s'⟩
      · rfl
      · exact hrest _
      · rfl

variable [DecidableEq κ]

/-- Delegated predicates are tried the same way. -/
theorem firstPredicate_behind (owner : κ) (required provided : Role κ)
    (rules : List (DelegatedPredicate κ × Nat))
    (hrules : ∀ entry ∈ rules, Predicate.Ignores entry.1.predicate before) (s : Session κ) :
    firstPredicate owner required provided rules (s.behind before events) =
      ((firstPredicate owner required provided rules s).1,
        (firstPredicate owner required provided rules s).2.behind before events) := by
  induction rules generalizing s with
  | nil => rfl
  | cons entry rest ih =>
    obtain ⟨rule, index⟩ := entry
    have hr : rule.predicate (s.behind before events).history provided.payload required.payload =
        rule.predicate s.history provided.payload required.payload :=
      hrules _ List.mem_cons_self _ _ _
    have hrest := ih fun entry he ↦ hrules entry (List.mem_cons_of_mem _ he)
    simp only [firstPredicate, hr, Session.record_behind, Session.report_behind]
    split
    · exact hrest _
    · split
      · split
        · rfl
        · exact hrest _
      · exact hrest _

/-- The rules of a definition are tried the same way. -/
theorem matchRules_behind {d : RoleDefinition κ} (hd : d.Ignores before)
    (required provided : Role κ) (s : Session κ) :
    matchRules d required provided (s.behind before events) =
      ((matchRules d required provided s).1,
        (matchRules d required provided s).2.behind before events) := by
  have hrules : ∀ entry ∈ d.delegated.zipIdx, Predicate.Ignores entry.1.predicate before := by
    intro entry he
    exact hd.predicates _ (List.fst_mem_of_mem_zipIdx he)
  unfold matchRules
  split
  · rfl
  · split
    · rfl
    · rw [firstPredicate_behind d.kind required provided d.delegated.zipIdx hrules]

variable {R : Registry K} (hR : R.Ignores before) {required : Role κ}
include hR

/-- The direct rules are tried the same way. -/
theorem matchDirect_behind (provided : Role κ) (s : Session κ) :
    matchDirect R required provided (s.behind before events) =
      ((matchDirect R required provided s).1,
        (matchDirect R required provided s).2.behind before events) := by
  unfold matchDirect
  split
  · rfl
  · split
    · rfl
    · next d hd => rw [matchRules_behind (hR d (Registry.mem_of_lookup hd))]

/-- A role is examined the same way. -/
theorem examine_behind {search : SearchFrom κ} (h : Oblivious before events search) :
    Oblivious before events (examine R required search) := by
  intro provided s
  unfold examine
  rw [matchDirect_behind hR]
  rcases matchDirect R required provided s with ⟨failure | _ | rule, s₁⟩
  · rfl
  · dsimp only
    cases hd : R.lookup provided.kind with
    | error fault => rfl
    | ok d =>
      have hrules : ∀ entry ∈ d.conversions.zipIdx,
          Conversion.Ignores entry.1.conversion before := by
        intro entry he
        exact (hR d (Registry.mem_of_lookup hd)).conversions _ (List.fst_mem_of_mem_zipIdx he)
      dsimp only
      split
      · rfl
      · have ht : (s₁.behind before events).tracker = s₁.tracker := rfl
        rw [ht]
        rcases s₁.tracker.enter K provided.kind with ⟨failure | _, t⟩
        · rfl
        · exact tryConversions_behind h d.kind provided _ hrules (s₁.track t)
  · exact congrArg (Prod.mk _) (Session.report_behind ..)

/-- Searches along chains of bounded length go the same way. -/
theorem searchWithin_behind (hops : Nat) :
    Oblivious before events (searchWithin R required hops) := by
  induction hops with
  | zero => exact examine_behind hR fun _ _ ↦ rfl
  | succ hops ih => exact examine_behind hR ih

/-- The search of a resolution goes the same way. -/
theorem search_behind : Oblivious before events (search R required) :=
  searchWithin_behind hR K.count

omit hR

/-- A check is resolved the same way. -/
theorem resolveIn_behind {r : Resolver K} (hR : r.registry.Ignores before)
    (required provided : Role κ) (s : Session κ) :
    r.resolveIn required provided (s.behind before events) =
      ((r.resolveIn required provided s).1,
        (r.resolveIn required provided s).2.behind before events) := by
  unfold resolveIn
  rw [search_behind hR]
  rcases search r.registry required provided s with ⟨failure | found, s₁⟩
  · rfl
  · rcases r.logsCheck required.kind provided.kind with fault | full
    · rfl
    · cases full <;> exact congrArg (Prod.mk _) (Session.report_behind ..)

/-- Whether a role satisfies another is found out the same way. -/
theorem satisfiesIn_behind {r : Resolver K} (hR : r.registry.Ignores before)
    (required provided : Role κ) (s : Session κ) :
    r.satisfiesIn required provided (s.behind before events) =
      ((r.satisfiesIn required provided s).1,
        (r.satisfiesIn required provided s).2.behind before events) := by
  simp only [satisfiesIn_eq, resolveIn_behind hR]

end Resolver
end RoleResolution
