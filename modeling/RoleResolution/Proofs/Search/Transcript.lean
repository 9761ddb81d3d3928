import RoleResolution.Proofs.Search.Exploration

/-!
# Transcripts of searches

A transcript is the list of invocations of caller's functions that a whole search makes. What a
transcript looks like follows from the rules alone: the predicates that are due for a role are
asked in order until one answers true, and only after they all answered false the conversions of
the role are invoked, each followed by the transcript of the search from its result.
-/

namespace RoleResolution

variable {κ : Type}

/-- An invocation of a predicate of the required kind. -/
def Invocation.ask (required provided : Role κ) (index : Nat) (answer : Bool) : Invocation κ :=
  .predicate required.kind index provided.payload required.payload answer

/-- An invocation of a conversion of a role. -/
def Invocation.convert (provided : Role κ) (index : Nat) (answer : Option Payload) :
    Invocation κ :=
  .conversion provided.kind index provided.payload answer

/-- Predicates are asked in order of their positions until one answers true. -/
inductive Asks (required provided : Role κ) :
    List Nat → List (Invocation κ) → Option Nat → Prop where
  | done : Asks required provided [] [] none
  | refused {index : Nat} {due : List Nat} {calls : List (Invocation κ)} {granting : Option Nat}
      (rest : Asks required provided due calls granting) :
      Asks required provided (index :: due) (.ask required provided index false :: calls) granting
  | granted {index : Nat} {due : List Nat} :
      Asks required provided (index :: due) [.ask required provided index true] (some index)

/-- An invocation is a predicate that answers true. -/
def Invocation.Grants : Invocation κ → Prop
  | .predicate _ _ _ _ answer => answer = true
  | .conversion _ _ _ _ => False

/-- What is not the head of a list is in its tail, with the same elements after it. -/
private theorem split_of_ne {α : Type} {first x : α} {xs before after : List α}
    (h : first :: xs = before ++ x :: after) (hx : first ≠ x) :
    ∃ front, xs = front ++ x :: after := by
  cases before with
  | nil => exact absurd (List.cons.inj h).1 hx
  | cons _ front => exact ⟨front, (List.cons.inj h).2⟩

/-- What is not in the first of two lists is in the second, with the same elements after it. -/
private theorem split_of_not_mem {α : Type} {x : α} {xs ys before after : List α}
    (h : xs ++ ys = before ++ x :: after) (hx : x ∉ xs) : ∃ front, ys = front ++ x :: after := by
  rcases List.append_eq_append_iff.mp h with ⟨front, -, rfl⟩ | ⟨front, rfl, hy⟩
  · exact ⟨front, rfl⟩
  · cases front with
    | nil => exact ⟨[], hy.symm⟩
    | cons first front =>
      obtain ⟨rfl, -⟩ := List.cons.inj hy
      exact absurd (List.mem_append_right _ List.mem_cons_self) hx

/-- When no predicate grants the role, none has answered true. -/
theorem Asks.not_grants {required provided : Role κ} {due : List Nat}
    {calls : List (Invocation κ)} (h : Asks required provided due calls none) :
    ∀ call ∈ calls, ¬ call.Grants := by
  generalize hg : (none : Option Nat) = granting at h
  induction h with
  | done =>
    intro call hc
    cases hc
  | refused rest ih =>
    intro call hc
    rcases List.mem_cons.mp hc with rfl | hc
    · exact Bool.false_ne_true
    · exact ih hg call hc
  | granted => cases hg

/-- A predicate that answers true is the last one that is asked. -/
theorem Asks.last {required provided : Role κ} {due : List Nat} {calls : List (Invocation κ)}
    {granting : Option Nat} (h : Asks required provided due calls granting)
    {before after : List (Invocation κ)} {call : Invocation κ}
    (hc : calls = before ++ call :: after) (hg : call.Grants) : after = [] := by
  induction h generalizing before with
  | done => simp at hc
  | refused rest ih =>
    obtain ⟨front, hf⟩ := split_of_ne hc fun he ↦ by
      rw [← he] at hg
      exact Bool.false_ne_true hg
    exact ih hf
  | granted =>
    cases before with
    | nil =>
      cases hc
      rfl
    | cons first before =>
      obtain ⟨-, hc⟩ := List.cons.inj hc
      simp at hc

/-- The predicate is to be asked about a role: it is for the kind of the role, and all its guards
hold. -/
def DelegatedPredicate.isDue [DecidableEq κ] (rule : DelegatedPredicate κ)
    (required provided : Role κ) : Bool :=
  decide (rule.providedKind = provided.kind) &&
    rule.guards.all fun guard ↦ guard.holds provided.payload required.payload

namespace RoleDefinition

variable [DecidableEq κ] (d : RoleDefinition κ)

/-- The role is granted without a predicate: it is identical to the required one, or its kind
passes, or an attribute rule for its kind holds. -/
def Preempts (required provided : Role κ) : Prop :=
  (required == provided) = true ∨ provided.kind ∈ d.passes ∨
    ∃ rule ∈ d.attributeRules, rule.providedKind = provided.kind ∧
      rule.holds provided.payload required.payload = true

/-- The positions of the predicates to be asked about a role, in order of declaration. -/
def due (required provided : Role κ) : List Nat :=
  (d.delegated.zipIdx.filter fun entry ↦ entry.1.isDue required provided).map (·.2)

end RoleDefinition

variable {K : KindSet κ}

namespace Registry

/-- A recorded answer is what the rule's function gives after the invocations before it. -/
def Answers (R : Registry K) (history : History κ) : Invocation κ → Prop
  | .predicate owner index provided required answer => ∃ d rule, R.lookup owner = .ok d ∧
      d.delegated[index]? = some rule ∧ rule.predicate history provided required = answer
  | .conversion owner index payload answer => ∃ d rule, R.lookup owner = .ok d ∧
      d.conversions[index]? = some rule ∧ rule.conversion history payload = answer

/-- All recorded answers after a history are those of the rules' functions. -/
def Genuine (R : Registry K) : History κ → List (Invocation κ) → Prop
  | _, [] => True
  | history, call :: calls => R.Answers history call ∧ R.Genuine (history ++ [call]) calls

/-- Genuine invocations continue genuine ones. -/
theorem genuine_append {R : Registry K} {history : History κ} {calls later : List (Invocation κ)} :
    R.Genuine history (calls ++ later) ↔
      R.Genuine history calls ∧ R.Genuine (history ++ calls) later := by
  induction calls generalizing history with
  | nil => simp [Genuine]
  | cons call calls ih => simp [Genuine, ih, and_assoc]

end Registry

variable [DecidableEq κ]

mutual

/-- The transcript of the search from a role: with the kinds visited before it and after it, and
what the search finds. The definition is that of the required kind. -/
inductive Transcript (R : Registry K) (d : RoleDefinition κ) (required : Role κ) :
    Role κ → List κ → List (Invocation κ) → List κ → Finding κ → Prop where
  /-- The role is granted and nothing is invoked. -/
  | preempted {provided : Role κ} {visited : List κ} {rule : MatchedRule}
      (preempts : d.Preempts required provided) :
      Transcript R d required provided visited [] visited (.ok (some (rule, [])))
  /-- The first predicate that answers true grants the role. -/
  | granted {provided : Role κ} {visited : List κ} {calls : List (Invocation κ)} {index : Nat}
      (unpreempted : ¬ d.Preempts required provided)
      (asks : Asks required provided (d.due required provided) calls (some index)) :
      Transcript R d required provided visited calls visited
        (.ok (some (.delegatedPredicate index, [])))
  /-- No predicate answers true and the kind of the role has no conversions. -/
  | barren {provided : Role κ} {visited : List κ} {calls : List (Invocation κ)}
      (unpreempted : ¬ d.Preempts required provided)
      (asks : Asks required provided (d.due required provided) calls none)
      (unconverted : ¬ R.Converts provided.kind) :
      Transcript R d required provided visited calls visited (.ok none)
  /-- No predicate answers true and the kind of the role was entered before. -/
  | repeated {provided : Role κ} {visited : List κ} {calls : List (Invocation κ)}
      (unpreempted : ¬ d.Preempts required provided)
      (asks : Asks required provided (d.due required provided) calls none)
      (converts : R.Converts provided.kind) (seen : provided.kind ∈ visited) :
      Transcript R d required provided visited calls visited
        (.error (.error ⟨provided.kind, visited ++ [provided.kind]⟩))
  /-- No predicate answers true, and the kind of the role is entered before its conversions are
  invoked. -/
  | entered {provided : Role κ} {visited visited' : List κ} {calls later : List (Invocation κ)}
      {e : RoleDefinition κ} {finding : Finding κ}
      (unpreempted : ¬ d.Preempts required provided)
      (asks : Asks required provided (d.due required provided) calls none)
      (own : R.lookup provided.kind = .ok e) (converts : e.conversions ≠ [])
      (fresh : provided.kind ∉ visited)
      (tries : TranscriptRules R d required provided e.conversions.zipIdx
        (visited ++ [provided.kind]) later visited' finding) :
      Transcript R d required provided visited (calls ++ later) visited' finding

/-- The transcript of conversions of a role and of the searches from their results. -/
inductive TranscriptRules (R : Registry K) (d : RoleDefinition κ) (required : Role κ) :
    Role κ → List (ConversionRule κ × Nat) → List κ → List (Invocation κ) → List κ →
      Finding κ → Prop where
  /-- All conversions were tried. -/
  | done {provided : Role κ} {visited : List κ} :
      TranscriptRules R d required provided [] visited [] visited (.ok none)
  /-- A conversion declines, and the next one is tried. -/
  | declined {provided : Role κ} {rule : ConversionRule κ} {index : Nat}
      {rules : List (ConversionRule κ × Nat)} {visited visited' : List κ}
      {later : List (Invocation κ)} {finding : Finding κ}
      (rest : TranscriptRules R d required provided rules visited later visited' finding) :
      TranscriptRules R d required provided ((rule, index) :: rules) visited
        (.convert provided index none :: later) visited' finding
  /-- The whole search from the result finds nothing, and the next conversion is tried. -/
  | fruitless {provided : Role κ} {rule : ConversionRule κ} {index : Nat} {payload : Payload}
      {rules : List (ConversionRule κ × Nat)} {visited visited₁ visited' : List κ}
      {calls later : List (Invocation κ)} {finding : Finding κ}
      (inner : Transcript R d required ⟨rule.targetKind, payload⟩ visited calls visited₁
        (.ok none))
      (rest : TranscriptRules R d required provided rules visited₁ later visited' finding) :
      TranscriptRules R d required provided ((rule, index) :: rules) visited
        (.convert provided index (some payload) :: (calls ++ later)) visited' finding
  /-- The whole search from the result ends with a grant or fails, and no other conversion is
  tried. -/
  | decided {provided : Role κ} {rule : ConversionRule κ} {index : Nat} {payload : Payload}
      {rules : List (ConversionRule κ × Nat)} {visited visited' : List κ}
      {calls : List (Invocation κ)} {finding : Finding κ}
      (inner : Transcript R d required ⟨rule.targetKind, payload⟩ visited calls visited' finding)
      (decisive : finding ≠ .ok none) :
      TranscriptRules R d required provided ((rule, index) :: rules) visited
        (.convert provided index (some payload) :: calls) visited'
        (finding.after rule.targetKind)

end

/-! ### The end of a transcript -/

variable {R : Registry K} {d : RoleDefinition κ} {required : Role κ}

mutual

/-- A predicate that answers true is the last invocation of a search, and the search ends with a
grant. -/
theorem Transcript.last {provided : Role κ} {visited visited' : List κ}
    {calls before after : List (Invocation κ)} {call : Invocation κ} {finding : Finding κ}
    (h : Transcript R d required provided visited calls visited' finding)
    (hc : calls = before ++ call :: after) (hg : call.Grants) :
    after = [] ∧ ∃ grant, finding = .ok (some grant) := by
  match h with
  | .preempted _ => simp at hc
  | .granted _ asks => exact ⟨asks.last hc hg, _, rfl⟩
  | .barren _ asks _ | .repeated _ asks _ _ =>
    have hm : call ∈ calls := by
      rw [hc]
      exact List.mem_append_right _ List.mem_cons_self
    exact absurd hg (asks.not_grants call hm)
  | .entered _ asks _ _ _ tries =>
    obtain ⟨front, hf⟩ := split_of_not_mem hc fun hm ↦ asks.not_grants call hm hg
    exact tries.last hf hg

/-- A predicate that answers true is the last invocation of the trial of conversions, too. -/
theorem TranscriptRules.last {provided : Role κ} {rules : List (ConversionRule κ × Nat)}
    {visited visited' : List κ} {calls before after : List (Invocation κ)} {call : Invocation κ}
    {finding : Finding κ}
    (h : TranscriptRules R d required provided rules visited calls visited' finding)
    (hc : calls = before ++ call :: after) (hg : call.Grants) :
    after = [] ∧ ∃ grant, finding = .ok (some grant) := by
  have hconvert : ∀ index answer, Invocation.convert provided index answer ≠ call := by
    rintro index answer rfl
    exact hg
  match h with
  | .done => simp at hc
  | .declined rest =>
    obtain ⟨front, hf⟩ := split_of_ne hc (hconvert _ _)
    exact rest.last hf hg
  | .fruitless inner rest =>
    obtain ⟨front, hf⟩ := split_of_ne hc (hconvert _ _)
    obtain ⟨front', hf⟩ := split_of_not_mem hf fun hm ↦ by
      obtain ⟨before', after', hs⟩ := List.append_of_mem hm
      obtain ⟨-, grant, hn⟩ := inner.last hs hg
      cases hn
    exact rest.last hf hg
  | .decided inner decisive =>
    obtain ⟨front, hf⟩ := split_of_ne hc (hconvert _ _)
    obtain ⟨ha, ⟨rule, path⟩, rfl⟩ := inner.last hf hg
    exact ⟨ha, _, rfl⟩

end

end RoleResolution
