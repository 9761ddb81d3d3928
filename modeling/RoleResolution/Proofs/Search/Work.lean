import Mathlib.Data.List.Nodup
import RoleResolution.Proofs.Search.Exploration

/-!
# The work of a search

A conversion is invoked only while the kind that has it is newly entered, and a kind is entered
at most once. So no conversion rule is invoked twice, every role examined but the first stands
behind an invocation, and every conversion on the way to a grant behind a kind entered.
-/

namespace RoleResolution

variable {κ : Type} {K : KindSet κ}

/-- The number of conversion rules of a kind. -/
def Registry.conversionCount (R : Registry K) (kind : κ) : Nat :=
  match R.lookup kind with
  | .ok d => d.conversions.length
  | .error _ => 0

/-- The conversion rules of the listed kinds that are not visited. -/
def Registry.unvisitedRules [DecidableEq κ] (R : Registry K) (visited : List κ) :
    List (κ × Nat) :=
  (K.all.filter fun kind ↦ kind ∉ visited).flatMap fun kind ↦
    (List.range (R.conversionCount kind)).map (kind, ·)

/-- A position among the rules of a kind is below their number. -/
theorem Registry.lt_conversionCount {R : Registry K} {kind : κ} {d : RoleDefinition κ}
    {rule : ConversionRule κ} {n : Nat} (hd : R.lookup kind = .ok d)
    (hr : d.conversions[n]? = some rule) : n < R.conversionCount kind := by
  unfold conversionCount
  rw [hd]
  exact (List.getElem?_eq_some_iff.mp hr).1

/-- A kind that was not visited adds no repetition. -/
theorem CycleTracker.nodup_fresh {t : CycleTracker κ} {kind : κ} (hn : t.visited.Nodup)
    (h : kind ∉ t.visited) : (t.visited ++ [kind]).Nodup := by
  rw [← List.concat_eq_append]
  exact List.Nodup.concat h hn

/-- The number of conversions on the way to a grant. -/
def Finding.hops : Finding κ → Nat
  | .ok (some (_, path)) => path.length
  | .ok none => 0
  | .error _ => 0

/-- A conversion adds one to the number of conversions at most. -/
theorem Finding.hops_after_le (kind : κ) (finding : Finding κ) :
    (finding.after kind).hops ≤ finding.hops + 1 := by
  rcases finding with failure | _ | ⟨rule, path⟩
  · exact Nat.zero_le _
  · exact Nat.zero_le _
  · exact Nat.le_refl _

/-- A resolution has the conversions of the finding that it comes from. -/
theorem Finding.hops_of_resolution {finding : Finding κ} {resolution : Resolution κ}
    (h : finding.resolution = .ok resolution) : resolution.hops = finding.hops := by
  rcases finding with failure | _ | ⟨rule, path⟩
  · cases h
  · cases h
    rfl
  · cases h
    rfl

/-- A conversion adds no failure. -/
theorem Finding.after_eq_error {kind : κ} {finding : Finding κ}
    {failure : Failure (CycleError κ)} :
    finding.after kind = .error failure ↔ finding = .error failure := by
  rcases finding with failure' | _ | ⟨rule, path⟩
  · exact Iff.rfl
  · exact Iff.rfl
  · exact ⟨nofun, nofun⟩

/-- Part of a search enters kinds and invokes conversion rules: each kind for the first time,
and each rule once, of a kind that it enters or out of the rules that are its own. -/
structure Work (R : Registry K) (own : κ × Nat → Prop) (s s' : Session κ) (entered : List κ)
    (calls : List (κ × Nat)) : Prop where
  visited : s'.tracker.visited = s.tracker.visited ++ entered
  fresh : s'.tracker.visited.Nodup
  invoked : s'.conversionCalls = s.conversionCalls ++ calls
  once : calls.Nodup
  declared : ∀ call ∈ calls, call.2 < R.conversionCount call.1
  source : ∀ call ∈ calls, call.1 ∈ entered ∨ own call

/-- The conversion rules of a kind from a position on. -/
def ownFrom (owner : κ) (n : Nat) (call : κ × Nat) : Prop := call.1 = owner ∧ n ≤ call.2

namespace Work

variable {R : Registry K} {own : κ × Nat → Prop} {s s₁ s₂ s' : Session κ}
  {entered entered₁ entered₂ : List κ} {calls calls₁ calls₂ : List (κ × Nat)}

/-- Nothing is done while neither the tracker nor the invoked conversions change. -/
theorem idle (hn : s.tracker.visited.Nodup) (ht : s'.tracker = s.tracker)
    (hc : s'.conversionCalls = s.conversionCalls) : Work R own s s' [] [] where
  visited := by rw [ht, List.append_nil]
  fresh := by rwa [ht]
  invoked := by rw [hc, List.append_nil]
  once := List.nodup_nil
  declared := by simp
  source := by simp

/-- A kind entered during the work was not visited before. -/
theorem not_visited (h : Work R own s s' entered calls) {kind : κ} (hk : kind ∈ entered) :
    kind ∉ s.tracker.visited := by
  intro hv
  have hn := h.fresh
  rw [h.visited] at hn
  exact (List.nodup_append.mp hn).2.2 kind hv kind hk rfl

/-- A search invokes conversion rules of kinds that were not visited before. -/
theorem subset_unvisitedRules [DecidableEq κ] (hK : K.Lawful)
    (h : Work R (fun _ ↦ False) s s' entered calls) :
    calls ⊆ R.unvisitedRules s.tracker.visited := by
  intro call hc
  have hk := h.not_visited ((h.source call hc).resolve_right id)
  unfold Registry.unvisitedRules
  rw [List.mem_flatMap]
  refine ⟨call.1, ?_, ?_⟩
  · rw [List.mem_filter]
    exact ⟨hK.mem_all call.1, decide_eq_true hk⟩
  · rw [List.mem_map]
    exact ⟨call.2, List.mem_range.mpr (h.declared call hc), rfl⟩

/-- The work of a conversion of an entered kind, of the search from its result and of the
conversions after it. -/
theorem next {owner : κ} {n : Nat} (hv : owner ∈ s.tracker.visited)
    (ht : s₁.tracker = s.tracker) (hc : s₁.conversionCalls = s.conversionCalls ++ [(owner, n)])
    (hn : n < R.conversionCount owner)
    (inner : Work R (fun _ ↦ False) s₁ s₂ entered₁ calls₁)
    (rest : Work R (ownFrom owner (n + 1)) s₂ s' entered₂ calls₂) :
    Work R (ownFrom owner n) s s' (entered₁ ++ entered₂) ((owner, n) :: (calls₁ ++ calls₂)) := by
  have hinner : ∀ call ∈ calls₁, call.1 ∈ entered₁ :=
    fun call h ↦ (inner.source call h).resolve_right id
  have howner₁ : owner ∉ entered₁ := fun h ↦ inner.not_visited h (ht ▸ hv)
  have hv₂ : owner ∈ s₂.tracker.visited := by
    rw [inner.visited, ht]
    exact List.mem_append_left _ hv
  have howner₂ : owner ∉ entered₂ := fun h ↦ rest.not_visited h hv₂
  -- neither the search from the result nor the later conversions invoke this rule again
  have hfirst : (owner, n) ∉ calls₁ ++ calls₂ := by
    intro h
    rcases List.mem_append.mp h with h | h
    · exact howner₁ (hinner _ h)
    · rcases rest.source _ h with he | ⟨-, hl⟩
      · exact howner₂ he
      · exact absurd hl (Nat.not_succ_le_self n)
  have hdisjoint : ∀ call ∈ calls₁, ∀ other ∈ calls₂, call ≠ other := by
    rintro call h₁ _ h₂ rfl
    have hk := hinner call h₁
    rcases rest.source call h₂ with he | ⟨ho, -⟩
    · refine rest.not_visited he ?_
      rw [inner.visited]
      exact List.mem_append_right _ hk
    · exact howner₁ (ho ▸ hk)
  constructor
  · rw [rest.visited, inner.visited, ht, List.append_assoc]
  · exact rest.fresh
  · rw [rest.invoked, inner.invoked, hc]
    simp only [List.append_assoc, List.cons_append, List.nil_append]
  · exact List.nodup_cons.mpr
      ⟨hfirst, List.nodup_append.mpr ⟨inner.once, rest.once, hdisjoint⟩⟩
  · intro call h
    rcases List.mem_cons.mp h with rfl | h
    · exact hn
    · rcases List.mem_append.mp h with h | h
      · exact inner.declared call h
      · exact rest.declared call h
  · intro call h
    rcases List.mem_cons.mp h with rfl | h
    · exact .inr ⟨rfl, Nat.le_refl n⟩
    · rcases List.mem_append.mp h with h | h
      · exact .inl (List.mem_append_left _ (hinner call h))
      · rcases rest.source call h with he | ⟨ho, hl⟩
        · exact .inl (List.mem_append_right _ he)
        · exact .inr ⟨ho, Nat.le_of_succ_le hl⟩

/-- The work of a search that enters a kind is that of trying its conversions. -/
theorem enter {owner : κ} (hv : s₁.tracker.visited = s.tracker.visited ++ [owner])
    (hc : s₁.conversionCalls = s.conversionCalls)
    (tried : Work R (ownFrom owner 0) s₁ s' entered calls) :
    Work R (fun _ ↦ False) s s' (owner :: entered) calls where
  visited := by rw [tried.visited, hv, List.append_assoc]; rfl
  fresh := tried.fresh
  invoked := by rw [tried.invoked, hc]
  once := tried.once
  declared := tried.declared
  source := by
    intro call h
    rcases tried.source call h with he | ⟨ho, -⟩
    · exact .inl (List.mem_cons_of_mem owner he)
    · exact .inl (ho ▸ List.mem_cons_self)

end Work

namespace Resolver

variable [DecidableEq κ] {R : Registry K} {required : Role κ}

mutual

/-- A search from a tracker without repetitions does a work that bounds the roles examined and
the conversions on the way to a grant, and it finds no fault. -/
theorem Explores.work (hK : K.Lawful) (hR : R.Complete) {provided : Role κ} {s s' : Session κ}
    {examined : List (Role κ)} {finding : Finding κ}
    (h : Explores R required provided s examined finding s') (hn : s.tracker.visited.Nodup) :
    (∀ fault, finding ≠ .error (.fault fault)) ∧
      ∃ entered calls, Work R (fun _ ↦ False) s s' entered calls ∧
        examined.length ≤ calls.length + 1 ∧ finding.hops ≤ entered.length := by
  have hi := inspected hR required provided s
  have hc := inspect_conversionCalls R required provided s
  match h with
  | .settled hs =>
    rw [hs] at hi hc
    cases hi with
    | granted matched tracker =>
      exact ⟨nofun, [], [], .idle hn tracker hc, Nat.le_refl 1, Nat.le_refl 0⟩
    | barren unmatched unconverted tracker =>
      exact ⟨nofun, [], [], .idle hn tracker hc, Nat.le_refl 1, Nat.le_refl 0⟩
    | repeated unmatched converts visited tracker =>
      exact ⟨nofun, [], [], .idle hn tracker hc, Nat.le_refl 1, Nat.le_refl 0⟩
    | overrun fresh full =>
      have hl := hK.length_le_count (CycleTracker.nodup_fresh hn fresh)
      omega
  | .entered hs tried =>
    rw [hs] at hi hc
    cases hi with
    | entered unmatched lookup converts fresh tracker =>
      obtain ⟨d, hd, hk⟩ := hR provided.kind
      rw [lookup] at hd
      cases hd
      have hn₁ := CycleTracker.nodup_fresh hn fresh
      rw [← tracker] at hn₁
      have hv : provided.kind ∈ s.tracker.visited ++ [provided.kind] :=
        List.mem_append_right _ List.mem_cons_self
      rw [← tracker, ← hk] at hv
      obtain ⟨hf, entered, calls, hw, he, hh⟩ :=
        tried.work hK hR (hk ▸ lookup) (by rw [List.drop_zero]) hn₁ hv
      refine ⟨hf, _, calls, hw.enter (hk ▸ tracker) hc, ?_, hh⟩
      exact Nat.succ_le_succ he

/-- Trying conversions of an entered kind does a work likewise. -/
theorem ExploresRules.work (hK : K.Lawful) (hR : R.Complete) {owner : κ} {provided : Role κ}
    {d : RoleDefinition κ} {rules : List (ConversionRule κ × Nat)} {n : Nat} {s s' : Session κ}
    {examined : List (Role κ)} {finding : Finding κ}
    (h : ExploresRules R required owner provided rules s examined finding s')
    (hd : R.lookup owner = .ok d) (hrules : rules = (d.conversions.drop n).zipIdx n)
    (hn : s.tracker.visited.Nodup) (hv : owner ∈ s.tracker.visited) :
    (∀ fault, finding ≠ .error (.fault fault)) ∧
      ∃ entered calls, Work R (ownFrom owner n) s s' entered calls ∧
        examined.length ≤ calls.length ∧ finding.hops ≤ entered.length + 1 := by
  match h with
  | .done => exact ⟨nofun, [], [], .idle hn rfl rfl, Nat.le_refl 0, Nat.zero_le 1⟩
  | .declined attempted rest =>
    obtain ⟨hr, rfl, hrest⟩ := zipIdx_drop_cons hrules
    obtain ⟨ht, hc⟩ := attempt_frame attempted
    have hn₁ := ht.symm ▸ hn
    obtain ⟨hf, entered, calls, hw, he, hh⟩ := rest.work hK hR hd hrest hn₁ (ht.symm ▸ hv)
    refine ⟨hf, entered, _, .next hv ht hc (R.lt_conversionCount hd hr) (.idle hn₁ rfl rfl) hw,
      ?_, hh⟩
    exact he.trans (Nat.le_succ calls.length)
  | .fruitless attempted inner rest =>
    obtain ⟨hr, rfl, hrest⟩ := zipIdx_drop_cons hrules
    obtain ⟨ht, hc⟩ := attempt_frame attempted
    obtain ⟨-, entered₁, calls₁, hw₁, he₁, -⟩ := inner.work hK hR (ht.symm ▸ hn)
    have hv₂ : owner ∈ _ := hw₁.visited ▸ List.mem_append_left entered₁ (ht.symm ▸ hv)
    obtain ⟨hf, entered₂, calls₂, hw₂, he₂, hh₂⟩ := rest.work hK hR hd hrest hw₁.fresh hv₂
    refine ⟨hf, _, _, .next hv ht hc (R.lt_conversionCount hd hr) hw₁ hw₂, ?_, ?_⟩
    · rw [List.length_append, List.length_cons, List.length_append]
      omega
    · rw [List.length_append]
      omega
  | .decided attempted inner decisive =>
    obtain ⟨hr, rfl, -⟩ := zipIdx_drop_cons hrules
    obtain ⟨ht, hc⟩ := attempt_frame attempted
    obtain ⟨hf, entered, calls, hw, he, hh⟩ := inner.work hK hR (ht.symm ▸ hn)
    have hnext := Work.next hv ht hc (R.lt_conversionCount hd hr) hw (.idle hw.fresh rfl rfl)
    rw [List.append_nil, List.append_nil] at hnext
    refine ⟨?_, entered, _, hnext, he, ?_⟩
    · intro fault hfault
      exact hf fault (Finding.after_eq_error.mp hfault)
    · exact (Finding.hops_after_le _ _).trans (Nat.succ_le_succ hh)

end

end Resolver
end RoleResolution
