import RoleResolution.Proofs.Registry.Supply

/-!
# Definitions submitted one after another

A caller submits definitions to a builder one by one or list by list, and goes on after a refusal. A
list is read up to the first definition whose kind is held by then; those before it stay. So the
builder holds the definitions that were read before any other of their kind, in the order in which
they were read, and what is refused leaves no trace in it, nor in the registry that is built.
-/

namespace RoleResolution

variable {κ : Type}

/-- What a caller submits to a builder at a time. -/
inductive Submission (κ : Type) where
  | define (d : RoleDefinition κ)
  | defineAll (definitions : List (RoleDefinition κ))

variable [DecidableEq κ]

/-- What a builder holds after it has read some definitions, and held others before. -/
structure Collects (held read held' : List (RoleDefinition κ)) : Prop where
  /-- The kinds are pairwise different. -/
  distinct : (held'.map (·.kind)).Nodup
  /-- Nothing that was held is lost, and what is added comes after it in the order of reading. -/
  added : ∃ added, held' = held ++ added ∧ added.Sublist read
  /-- The first definition of a kind stays. -/
  first : ∀ kind, held'.find? (·.kind = kind) = (held ++ read).find? (·.kind = kind)

namespace Collects

variable {held held' held'' read later : List (RoleDefinition κ)} {d : RoleDefinition κ}

/-- Definitions are added where all kinds are different then. -/
theorem appended {added : List (RoleDefinition κ)}
    (hn : ((held ++ added).map (·.kind)).Nodup) : Collects held added (held ++ added) where
  distinct := hn
  added := ⟨added, rfl, List.Sublist.refl added⟩
  first := fun _ ↦ rfl

/-- A builder that reads nothing holds what it held. -/
theorem nothing (hn : (held.map (·.kind)).Nodup) : Collects held [] held := by
  have h : Collects held [] (held ++ []) := appended (by rwa [List.append_nil])
  rwa [List.append_nil] at h

/-- A definition of a kind that is not held is added. -/
theorem accepted (hn : (held.map (·.kind)).Nodup) (hd : d.kind ∉ held.map (·.kind)) :
    Collects held [d] (held ++ [d]) := by
  apply appended
  rw [List.map_append, List.map_singleton, ← List.concat_eq_append]
  exact List.Nodup.concat hd hn

/-- A definition of a kind that is held is passed over. -/
theorem refused (hn : (held.map (·.kind)).Nodup) (hd : d.kind ∈ held.map (·.kind)) :
    Collects held [d] held where
  distinct := hn
  added := ⟨[], (List.append_nil held).symm, List.nil_sublist [d]⟩
  first := by
    intro kind
    obtain ⟨e, he, hk⟩ := List.mem_map.mp hd
    rw [List.find?_append]
    cases hf : held.find? (·.kind = kind) with
    | some first => rfl
    | none =>
      -- no definition of the kind is held, so the refused one is of another kind
      have hne := List.find?_eq_none.mp hf e he
      rw [hk] at hne
      simpa using hne

/-- What is read later comes after what was read before. -/
theorem trans (h : Collects held read held') (h' : Collects held' later held'') :
    Collects held (read ++ later) held'' where
  distinct := h'.distinct
  added := by
    obtain ⟨added, rfl, hs⟩ := h.added
    obtain ⟨added', rfl, hs'⟩ := h'.added
    exact ⟨added ++ added', List.append_assoc .., hs.append hs'⟩
  first := by
    intro kind
    rw [h'.first kind, List.find?_append, h.first kind, ← List.find?_append, List.append_assoc]

end Collects

/-- The definitions of a list that are read while some kinds are held: up to the first one of a kind
that is held or that came before in the list. -/
def readUntilHeld (held : List κ) : List (RoleDefinition κ) → List (RoleDefinition κ)
  | [] => []
  | d :: rest => d :: if d.kind ∈ held then [] else readUntilHeld (held ++ [d.kind]) rest

namespace Submission

/-- Submit to a builder: the builder afterwards, and whether anything was refused. -/
def run (b : RegistryBuilder κ) : Submission κ → RegistryBuilder κ × Except (BuildError κ) Unit
  | define d => b.define d
  | defineAll definitions => b.defineAll definitions

/-- The definitions that a builder reads of a submission. -/
def read (b : RegistryBuilder κ) : Submission κ → List (RoleDefinition κ)
  | define d => [d]
  | defineAll definitions => readUntilHeld (b.definitions.map (·.kind)) definitions

end Submission

namespace RegistryBuilder

/-- The builder after some submissions. -/
def submitAll (b : RegistryBuilder κ) (submissions : List (Submission κ)) : RegistryBuilder κ :=
  submissions.foldl (fun b submission ↦ (submission.run b).1) b

/-- The definitions that a builder reads of some submissions, in order. -/
def readAll (b : RegistryBuilder κ) : List (Submission κ) → List (RoleDefinition κ)
  | [] => []
  | submission :: rest => submission.read b ++ readAll (submission.run b).1 rest

variable {b : RegistryBuilder κ}

/-- A single definition is refused exactly when its kind is held. -/
theorem run_define (b : RegistryBuilder κ) (d : RoleDefinition κ) :
    (Submission.define d).run b =
      if d.kind ∈ b.definitions.map (·.kind) then (b, .error (.duplicateDefinition d.kind))
      else ({ b with definitions := b.definitions ++ [d] }, .ok ()) := by
  split
  · next h => exact define_of_held h
  · next h => exact define_of_new h

/-- A list of definitions is added up to the first one whose kind is held or came before. -/
theorem defineAll_stops (definitions : List (RoleDefinition κ)) (b : RegistryBuilder κ)
    (hn : (b.definitions.map (·.kind)).Nodup) :
    ∃ before after, definitions = before ++ after ∧
      readUntilHeld (b.definitions.map (·.kind)) definitions = before ++ after.take 1 ∧
      (b.defineAll definitions).1 = { b with definitions := b.definitions ++ before } ∧
      ((b.definitions ++ before).map (·.kind)).Nodup ∧
      (after = [] ∧ (b.defineAll definitions).2 = .ok () ∨
        ∃ d rest, after = d :: rest ∧ d.kind ∈ (b.definitions ++ before).map (·.kind) ∧
          (b.defineAll definitions).2 = .error (.duplicateDefinition d.kind)) := by
  induction definitions generalizing b with
  | nil => exact ⟨[], [], rfl, rfl, by simp [defineAll], by simpa using hn, .inl ⟨rfl, rfl⟩⟩
  | cons d rest ih =>
    by_cases hd : d.kind ∈ b.definitions.map (·.kind)
    · refine ⟨[], d :: rest, rfl, ?_, ?_, by simpa using hn,
        .inr ⟨d, rest, rfl, by simpa using hd, ?_⟩⟩
      · rw [readUntilHeld, if_pos hd]
        rfl
      · rw [defineAll, define_of_held hd, List.append_nil]
      · rw [defineAll, define_of_held hd]
    · obtain ⟨before, after, rfl, hread, hb, hbefore, hafter⟩ :=
        ih { b with definitions := b.definitions ++ [d] } (Collects.accepted hn hd).distinct
      have hstep : b.defineAll (d :: (before ++ after)) =
          defineAll { b with definitions := b.definitions ++ [d] } (before ++ after) := by
        rw [defineAll, define_of_new hd]
      refine ⟨d :: before, after, rfl, ?_, ?_, by simpa using hbefore, ?_⟩
      · rw [List.map_append, List.map_singleton] at hread
        rw [readUntilHeld, if_neg hd, hread, List.cons_append]
      · rw [hstep, hb, List.append_assoc, List.singleton_append]
      · rw [hstep]
        simpa using hafter

/-- A builder collects what it reads of a list. -/
theorem defineAll_collects (definitions : List (RoleDefinition κ))
    (hn : (b.definitions.map (·.kind)).Nodup) :
    Collects b.definitions (readUntilHeld (b.definitions.map (·.kind)) definitions)
      (b.defineAll definitions).1.definitions := by
  obtain ⟨before, after, -, hread, hb, hbefore, hafter⟩ := defineAll_stops definitions b hn
  rw [hread, hb]
  rcases hafter with ⟨rfl, -⟩ | ⟨d, rest, rfl, hd, -⟩
  · rw [List.take_nil, List.append_nil]
    exact .appended hbefore
  · exact (Collects.appended hbefore).trans (.refused hbefore hd)

/-- A builder collects what it reads of a submission. -/
theorem run_collects (hn : (b.definitions.map (·.kind)).Nodup) (submission : Submission κ) :
    Collects b.definitions (submission.read b) (submission.run b).1.definitions := by
  cases submission with
  | define d =>
    rw [run_define]
    split
    · next hd => exact .refused hn hd
    · next hd => exact .accepted hn hd
  | defineAll definitions => exact defineAll_collects definitions hn

/-- A builder collects what it reads of all submissions. -/
theorem submitAll_collects (submissions : List (Submission κ)) (b : RegistryBuilder κ)
    (hn : (b.definitions.map (·.kind)).Nodup) :
    Collects b.definitions (b.readAll submissions) (b.submitAll submissions).definitions := by
  induction submissions generalizing b with
  | nil => exact .nothing hn
  | cons submission rest ih =>
    have hstep := run_collects hn submission
    exact hstep.trans (ih (submission.run b).1 hstep.distinct)

/-- Of definitions of pairwise different kinds, one is the first of its kind. -/
theorem find?_kind_of_mem {definitions : List (RoleDefinition κ)} {d : RoleDefinition κ}
    (hn : (definitions.map (·.kind)).Nodup) (hd : d ∈ definitions) :
    definitions.find? (·.kind = d.kind) = some d := by
  cases hf : definitions.find? (·.kind = d.kind) with
  | none =>
    have hne := List.find?_eq_none.mp hf d hd
    simp at hne
  | some e =>
    have hk : e.kind = d.kind := by simpa using List.find?_some hf
    exact congrArg some (List.inj_on_of_nodup_map hn (List.mem_of_find?_eq_some hf) hd hk)

/-- A registry that is built looks up, of every kind, the definition that was read first. -/
theorem lookup_of_build_collects {K : KindSet κ} (hK : K.Lawful) {read : List (RoleDefinition κ)}
    (h : Collects [] read b.definitions) {R : Registry K} (hb : (b.build K).1 = .ok R) (kind : κ) :
    ∃ d, read.find? (·.kind = kind) = some d ∧ R.lookup kind = .ok d := by
  obtain ⟨d, hd, rfl, hlookup⟩ := Registry.lookup_of_arrange hK (Registry.build_ok hb).1 kind
  have hfirst := h.first d.kind
  rw [find?_kind_of_mem h.distinct hd] at hfirst
  exact ⟨d, hfirst.symm, hlookup⟩

/-- After any submissions to a fresh builder, refused ones included, it holds definitions of
pairwise different kinds in the order in which they were read, and later submissions only add to
them. A single definition is refused exactly when its kind is held, and then nothing changes. A list
is read up to the first definition whose kind is held or came before in the list; those before it
are added and none after it. A registry built over a lawful kind set looks up, of every kind, the
definition that was read first. -/
theorem submitAll_keeps_first (config : RegistryConfig) (submissions : List (Submission κ)) :
    let b := submitAll ⟨[], config⟩ submissions
    let read := readAll ⟨[], config⟩ submissions
    (b.definitions.map (·.kind)).Nodup ∧ b.definitions.Sublist read ∧
    (∀ later, b.definitions <+: (b.submitAll later).definitions) ∧
    (∀ d, (Submission.define d).run b =
      if d.kind ∈ b.definitions.map (·.kind) then (b, .error (.duplicateDefinition d.kind))
      else ({ b with definitions := b.definitions ++ [d] }, .ok ())) ∧
    (∀ definitions, ∃ before after, definitions = before ++ after ∧
      (Submission.defineAll definitions).read b = before ++ after.take 1 ∧
      ((Submission.defineAll definitions).run b).1 =
        { b with definitions := b.definitions ++ before } ∧
      ((b.definitions ++ before).map (·.kind)).Nodup ∧
      (after = [] ∧ ((Submission.defineAll definitions).run b).2 = .ok () ∨
        ∃ d rest, after = d :: rest ∧ d.kind ∈ (b.definitions ++ before).map (·.kind) ∧
          ((Submission.defineAll definitions).run b).2 = .error (.duplicateDefinition d.kind))) ∧
    ∀ K : KindSet κ, K.Lawful → ∀ R : Registry K, (b.build K).1 = .ok R →
      ∀ kind, ∃ d, read.find? (·.kind = kind) = some d ∧ R.lookup kind = .ok d := by
  intro b read
  have hcollects : Collects [] read b.definitions :=
    submitAll_collects submissions ⟨[], config⟩ List.nodup_nil
  refine ⟨hcollects.distinct, ?_, ?_, run_define b, ?_, ?_⟩
  · obtain ⟨added, hadded, hs⟩ := hcollects.added
    rwa [hadded]
  · intro later
    obtain ⟨added, hadded, -⟩ := (submitAll_collects later b hcollects.distinct).added
    exact ⟨added, hadded.symm⟩
  · intro definitions
    exact defineAll_stops definitions b hcollects.distinct
  · intro K hK R hb kind
    exact lookup_of_build_collects hK hcollects hb kind

end RegistryBuilder

namespace Rank

/-- A rank whose checks are logged. -/
def logged (rank : Rank) : RoleDefinition Rank :=
  { RoleDefinition.ofKind rank with logging := true }

/-- Members and owners are submitted twice, and guests once more in the middle of a list, which ends
it. The rest of the list is submitted later. -/
def submissions : List (Submission Rank) := [
  .define (.ofKind guest), .defineAll [.ofKind member, logged guest, .ofKind editor],
  .define (logged member), .defineAll [logged editor, .ofKind admin, logged admin],
  .define (logged owner), .define (.ofKind owner)]

/-- The definitions that were the first of their rank to be read. -/
def submitted : RegistryBuilder Rank where
  definitions := [.ofKind guest, .ofKind member, logged editor, .ofKind admin, logged owner]

/-- The registry looks up the definitions that were read first, and none of those refused. -/
theorem submitted_first :
    kinds.Lawful ∧ RegistryBuilder.submitAll {} submissions = submitted ∧
      (submitted.build kinds).1 = .ok ⟨submitted.definitions⟩ ∧
      (RegistryBuilder.readAll {} submissions).map (·.kind) =
        [guest, member, guest, member, editor, admin, admin, owner, owner] ∧
      ∀ kind, ∃ d, (RegistryBuilder.readAll {} submissions).find? (·.kind = kind) = some d ∧
        Registry.lookup (K := kinds) ⟨submitted.definitions⟩ kind = .ok d := by
  have hheld : RegistryBuilder.submitAll {} submissions = submitted := by
    simp [submissions, submitted, RegistryBuilder.submitAll, Submission.run,
      RegistryBuilder.defineAll, RegistryBuilder.define, RoleDefinition.ofKind, logged]
  have hb : (submitted.build kinds).1 = .ok ⟨submitted.definitions⟩ := rfl
  obtain ⟨-, -, -, -, -, hlookup⟩ := RegistryBuilder.submitAll_keeps_first {} submissions
  refine ⟨lawful_kinds, hheld, hb, ?_, ?_⟩
  · rfl
  · exact hlookup kinds lawful_kinds _ (hheld ▸ hb)

end Rank
end RoleResolution
