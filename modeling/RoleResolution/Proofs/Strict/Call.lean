import RoleResolution.Proofs.Outcome.Bound
import RoleResolution.Proofs.Search.Recording
import RoleResolution.Proofs.Strict.Tracking

/-!
# Calls with one tracker

A caller enters kinds and checks roles with one tracker, in any order and with any resolvers, and
goes on after a failure with whatever it has left. Every call only adds kinds at the end of the
tracker, each for the first time, and a cycle error shows all of them, with the repeated kind after
them. The same calls on a tracker in two containers come out the same.
-/

namespace RoleResolution

variable {κ : Type}

/-! ### The error of a search -/

/-- A cycle error shows all visited kinds in order and then its own, which is one of them, and it
does so by their names. -/
structure CycleError.Closes (K : KindSet κ) (e : CycleError κ) (visited : List κ) : Prop where
  repeated : e.kind ∈ visited
  chain : e.chain = visited ++ [e.kind]
  names : e.chainNames K = visited.map K.name ++ [e.kindName K]

/-- The error of entering a visited kind once more closes the visited kinds. -/
theorem CycleError.closes_of_mem (K : KindSet κ) {visited : List κ} {kind : κ}
    (h : kind ∈ visited) : Closes K ⟨kind, visited ++ [kind]⟩ visited where
  repeated := h
  chain := rfl
  names := List.map_append

section Transcripts

variable [DecidableEq κ] {K : KindSet κ} {R : Registry K} {d : RoleDefinition κ}
  {required : Role κ} {e : CycleError κ}

mutual

/-- The error of a search closes the kinds that the search leaves visited. -/
theorem Transcript.closes {provided : Role κ} {visited visited' : List κ}
    {calls : List (Invocation κ)} {finding : Finding κ}
    (h : Transcript R d required provided visited calls visited' finding)
    (hf : finding = .error (.error e)) : e.Closes K visited' := by
  match h with
  | .preempted _ | .granted _ _ | .barren _ _ _ => cases hf
  | .repeated _ _ _ seen =>
    cases hf
    exact CycleError.closes_of_mem K seen
  | .entered _ _ _ _ _ tries => exact tries.closes hf

/-- The error that ends the trial of conversions does so, too. -/
theorem TranscriptRules.closes {provided : Role κ} {rules : List (ConversionRule κ × Nat)}
    {visited visited' : List κ} {calls : List (Invocation κ)} {finding : Finding κ}
    (h : TranscriptRules R d required provided rules visited calls visited' finding)
    (hf : finding = .error (.error e)) : e.Closes K visited' := by
  match h with
  | .done => cases hf
  | .declined rest | .fruitless _ rest => exact rest.closes hf
  | .decided inner _ => exact inner.closes (Finding.after_eq_error.mp hf)

end

end Transcripts

/-! ### One call -/

/-- A call that went on with a tracker has only added kinds at its end, each for the first time, and
without a fault; its error, if any, closes the kinds visited now. -/
structure CycleTracker.Continues {α : Type} (K : KindSet κ) (before after : CycleTracker κ)
    (answer : Except (Failure (CycleError κ)) α) : Prop where
  grows : before.visited <+: after.visited
  distinct : after.visited.Nodup
  faultless : ∀ fault, answer ≠ .error (.fault fault)
  closes : ∀ e, answer = .error (.error e) → e.Closes K after.visited

namespace CycleTracker

variable {α β : Type} {K : KindSet κ} {before after : CycleTracker κ}
  {answer : Except (Failure (CycleError κ)) α}

/-- What is read off an answer fails as the answer does. -/
theorem Continues.map (h : Continues K before after answer) (f : α → β) :
    Continues K before after (answer.map f) where
  grows := h.grows
  distinct := h.distinct
  faultless fault hf := by
    cases answer with
    | error failure => exact h.faultless fault (congrArg _ (Except.error.inj hf))
    | ok a => cases hf
  closes e he := by
    cases answer with
    | error failure => exact h.closes e (congrArg _ (Except.error.inj he))
    | ok a => cases he

variable [DecidableEq κ] {t : CycleTracker κ}

/-- A tracker without repetitions continues when a kind is entered. -/
theorem enter_continues (hK : K.Lawful) (hn : t.visited.Nodup) (kind : κ) :
    Continues K t (t.enter K kind).2 (t.enter K kind).1 := by
  by_cases h : kind ∈ t.visited
  · rw [enter_visited h]
    refine ⟨List.prefix_rfl, hn, nofun, ?_⟩
    rintro e ⟨⟩
    exact CycleError.closes_of_mem K h
  · rw [enter_new hK hn h]
    exact ⟨List.prefix_append _ _, nodup_fresh hn h, nofun, nofun⟩

end CycleTracker

variable [DecidableEq κ] {K : KindSet κ}

namespace Resolver

variable {r : Resolver K} {s : Session κ}

/-- A tracker without repetitions continues when a check is resolved. -/
theorem resolveIn_continues (hK : K.Lawful) (hR : r.registry.Complete)
    (required provided : Role κ) (hn : s.tracker.visited.Nodup) :
    s.tracker.Continues K (r.resolveIn required provided s).2.tracker
      (r.resolveIn required provided s).1 := by
  obtain ⟨d, hd, hk⟩ := hR required.kind
  obtain ⟨examined, he⟩ := search_explores hK hR required provided s hn
  obtain ⟨hf, entered, calls, hw, -, -⟩ := he.work hK hR hn
  obtain ⟨_, -, -, htranscript⟩ := he.transcript hK hR hd hk hn
  obtain ⟨hr, ht, -⟩ := resolveIn_search hR required provided s
  rw [hr, ht]
  constructor
  · exact ⟨entered, hw.visited.symm⟩
  · exact hw.fresh
  · exact fun fault h ↦ hf fault (Finding.resolution_eq_error.mp h)
  · exact fun e h ↦ htranscript.closes (Finding.resolution_eq_error.mp h)

end Resolver

/-- A resolver over a registry that was built. -/
structure BuiltResolver (K : KindSet κ) extends Resolver K where
  built : ∃ b : RegistryBuilder κ, (b.build K).1 = .ok registry

/-- What a caller does with a tracker. Every check may be by another resolver. -/
inductive Call (K : KindSet κ) where
  | enter (kind : κ)
  | satisfiesWith (r : BuiltResolver K) (required provided : Role κ)
  | resolveWith (r : BuiltResolver K) (required provided : Role κ)

/-- What a call that goes well gives back. -/
inductive Reply (κ : Type) where
  | entered
  | satisfied (answer : Bool)
  | resolved (resolution : Resolution κ)

namespace Call

/-- Make a call, going on with a session. -/
def run (s : Session κ) : Call K → Outcome κ (Reply κ)
  | enter kind =>
    let (answer, t) := s.tracker.enter K kind
    (answer.map fun _ ↦ .entered, s.track t)
  | satisfiesWith r required provided =>
    let (answer, s) := r.satisfiesIn required provided s
    (answer.map .satisfied, s)
  | resolveWith r required provided =>
    let (answer, s) := r.resolveIn required provided s
    (answer.map .resolved, s)

/-- Make calls one after another, whether they fail or not: their answers, and what they leave. -/
def perform {σ : Type} (run : σ → Call K → Except (Failure (CycleError κ)) (Reply κ) × σ) :
    List (Call K) → σ → List (Except (Failure (CycleError κ)) (Reply κ)) × σ
  | [], s => ([], s)
  | call :: rest, s =>
    let (answer, s) := run s call
    let (answers, s) := perform run rest s
    (answer :: answers, s)

/-- A tracker without repetitions continues in a call. -/
theorem run_continues (hK : K.Lawful) {s : Session κ} (hn : s.tracker.visited.Nodup)
    (call : Call K) : s.tracker.Continues K (call.run s).2.tracker (call.run s).1 := by
  have hcomplete : ∀ r : BuiltResolver K, r.registry.Complete := by
    intro r
    obtain ⟨b, hb⟩ := r.built
    exact Registry.complete_of_build hK hb
  cases call with
  | enter kind => exact (CycleTracker.enter_continues hK hn kind).map _
  | satisfiesWith r required provided =>
    have h := Resolver.resolveIn_continues hK (hcomplete r) required provided hn
    rw [run, Resolver.satisfiesIn_eq]
    exact (h.map _).map _
  | resolveWith r required provided =>
    exact (Resolver.resolveIn_continues hK (hcomplete r) required provided hn).map _

/-- Calls leave a tracker without repetitions when they go on with one. -/
theorem perform_nodup (hK : K.Lawful) (calls : List (Call K)) {s : Session κ}
    (hn : s.tracker.visited.Nodup) : (perform run calls s).2.tracker.visited.Nodup := by
  induction calls generalizing s with
  | nil => exact hn
  | cons call rest ih => exact ih (run_continues hK hn call).distinct

end Call

namespace Strict

/-- Make a call, going on with a state. -/
def run (s : State κ) : Call K → Except (Failure (CycleError κ)) (Reply κ) × State κ
  | .enter kind =>
    let (answer, t) := s.tracker.enter kind
    (answer.map fun _ ↦ .entered, s.track t)
  | .satisfiesWith r required provided =>
    let (answer, s) := satisfiesIn r.toResolver required provided s
    (answer.map .satisfied, s)
  | .resolveWith r required provided =>
    let (answer, s) := resolveIn r.toResolver required provided s
    (answer.map .resolved, s)

omit [DecidableEq κ] in
/-- What is read off answers that agree agrees. -/
theorem Agrees.map {α β : Type} {outcome : Except (Failure (CycleError κ)) α × State κ}
    {plain : Outcome κ α} (h : Agrees K outcome plain) (f : α → β) :
    Agrees K (outcome.1.map f, outcome.2) (plain.1.map f, plain.2) where
  consistent := h.consistent
  same := by rw [h.same]

/-- A call agrees. -/
theorem run_agrees {s : State κ} (hs : s.tracker.Consistent K) (call : Call K) :
    Agrees K (run s call) (call.run s.plain) := by
  cases call with
  | enter kind =>
    obtain ⟨hc, hsame⟩ := hs.enter kind
    have hplain : s.plain.tracker.enter K kind = _ := hsame
    refine ⟨hc, ?_⟩
    rw [Call.run, hplain]
    rfl
  | satisfiesWith r required provided => exact (satisfiesIn_agrees _ required provided hs).map _
  | resolveWith r required provided => exact (resolveIn_agrees _ required provided hs).map _

/-- Calls one after another agree. -/
theorem perform_agrees (calls : List (Call K)) {s : State κ} (hs : s.tracker.Consistent K) :
    Agrees K (Call.perform run calls s) (Call.perform Call.run calls s.plain) := by
  induction calls generalizing s with
  | nil => exact ⟨hs, rfl⟩
  | cons call rest ih =>
    obtain ⟨hc, hsame⟩ := run_agrees hs call
    obtain ⟨hc', hsame'⟩ := ih hc
    refine ⟨hc', ?_⟩
    rw [Call.perform, hsame]
    dsimp only
    rw [hsame']
    rfl

end Strict

/-! ### Runs of calls -/

/-- Calls with one tracker that was fresh at first come out the same when the tracker is kept in two
containers, and these hold the same kinds. There is no repetition among the visited kinds and never
more of them than are listed. Another call, of whatever sort and outcome, only adds kinds after
them, and its error closes those visited then. Entering a kind fails exactly when it is visited,
which leaves the tracker as it was, in two containers too, and reports the names of the visited
kinds and then that of the kind. -/
theorem Call.perform_tracker (hK : K.Lawful) (calls : List (Call K)) (history : History κ)
    (events : List (Event κ)) :
    let ended := perform run calls ⟨{}, history, events⟩
    let paired := perform Strict.run calls ⟨.fresh K, history, events⟩
    let t := ended.2.tracker
    (paired.1 = ended.1 ∧ paired.2.plain = ended.2 ∧
      ∀ kind, paired.2.tracker.isVisited kind = true ↔ kind ∈ t.visited) ∧
    (t.visited.Nodup ∧ (∀ kind, t.isVisited kind = true ↔ kind ∈ t.visited) ∧
      t.depth = t.visited.length ∧ t.depth ≤ K.count) ∧
    (∀ call : Call K, t.Continues K (call.run ended.2).2.tracker (call.run ended.2).1) ∧
    (∀ kind ∈ t.visited,
      let e : CycleError κ := ⟨kind, t.visited ++ [kind]⟩
      t.enter K kind = (.error (.error e), t) ∧
      paired.2.tracker.enter kind = (.error (.error e), paired.2.tracker) ∧
      e.kindName K = K.name kind ∧ e.chainNames K = t.visited.map K.name ++ [K.name kind]) ∧
    ∀ kind ∉ t.visited,
      t.enter K kind = (.ok (), ⟨t.visited ++ [kind]⟩) ∧
      (paired.2.tracker.enter kind).1 = .ok () := by
  intro ended paired t
  have hn : t.visited.Nodup := perform_nodup hK calls List.nodup_nil
  obtain ⟨hc, hsame⟩ : Strict.Agrees K paired ended :=
    Strict.perform_agrees calls Strict.Tracker.consistent_fresh
  have ht : paired.2.tracker.toCycleTracker = t :=
    congrArg (fun o ↦ o.2.tracker) hsame.symm
  have hv : paired.2.tracker.visited = t.visited := congrArg CycleTracker.visited ht
  refine ⟨⟨?_, ?_, ?_⟩, ⟨hn, ?_, rfl, hK.length_le_count hn⟩, Call.run_continues hK hn, ?_, ?_⟩
  · exact congrArg Prod.fst hsame.symm
  · exact congrArg Prod.snd hsame.symm
  · intro kind
    rw [Strict.Tracker.isVisited, decide_eq_true_iff, hc.members kind, hv]
  · intro kind
    exact decide_eq_true_iff
  · intro kind hk
    refine ⟨CycleTracker.enter_visited hk, ?_, rfl, (CycleError.closes_of_mem K hk).names⟩
    rw [Strict.Tracker.enter_of_mem ((hc.members kind).mpr (hv ▸ hk)), hv]
  · intro kind hk
    have henter := CycleTracker.enter_new hK hn hk
    refine ⟨henter, ?_⟩
    have hpaired := (hc.enter kind).2
    rw [ht, henter] at hpaired
    exact (congrArg Prod.fst hpaired).symm

namespace Rank

/-- The checks of the ladder. -/
def climb : BuiltResolver kinds where
  toResolver := resolver []
  built := ⟨_, build_ladder⟩

/-- The checks of the ladder with a way back. -/
def circle : BuiltResolver kinds where
  toResolver := resolver [always member]
  built := ⟨_, build_loop⟩

/-- Calls of all sorts with resolvers of both ladders, some of which fail. -/
def calls : List (Call kinds) := [
  .enter owner, .satisfiesWith climb (.unit editor) (.unit member), .enter owner,
  .resolveWith circle (.unit admin) (.unit editor),
  .resolveWith circle (.unit owner) (.unit guest), .enter admin]

/-- The answers to these calls. -/
def answers : List (Except (Failure (CycleError Rank)) (Reply Rank)) := [
  .ok .entered, .ok (.satisfied true), .error (.error ⟨owner, [owner, member, owner]⟩),
  .ok (.resolved (.granted .identity [admin])),
  .error (.error ⟨member, [owner, member, editor, guest, member]⟩), .ok .entered]

/-- Two of the calls fail, each with an error that shows the ranks visited at that time. In the end
all ranks are visited, so that none can be entered again, and an attempt names them all. -/
theorem calls_on_ladders :
    kinds.Lawful ∧ (Call.perform Call.run calls {}).1 = answers ∧
      (Call.perform Strict.run calls ⟨.fresh kinds, [], []⟩).1 = answers ∧
      (Call.perform Call.run calls {}).2.tracker.visited = [owner, member, editor, guest, admin] ∧
      (∀ kind,
        (Call.perform Strict.run calls ⟨.fresh kinds, [], []⟩).2.tracker.isVisited kind = true) ∧
      (Call.perform Call.run calls {}).2.tracker.enter kinds guest =
        (.error (.error ⟨guest, [owner, member, editor, guest, admin, guest]⟩),
          (Call.perform Call.run calls {}).2.tracker) ∧
      CycleError.chainNames kinds ⟨guest, [owner, member, editor, guest, admin, guest]⟩ =
        ["Owner", "Member", "Editor", "Guest", "Admin", "Guest"] ∧
      ∀ call : Call kinds, (Call.perform Call.run calls {}).2.tracker.Continues kinds
        (call.run (Call.perform Call.run calls {}).2).2.tracker
        (call.run (Call.perform Call.run calls {}).2).1 := by
  obtain ⟨⟨hpaired, -, hset⟩, -, hcall, hrepeated, -⟩ :=
    Call.perform_tracker lawful_kinds calls [] []
  have hanswers : (Call.perform Call.run calls {}).1 = answers := rfl
  have hvisited : (Call.perform Call.run calls {}).2.tracker.visited =
      [owner, member, editor, guest, admin] := rfl
  have hall : ∀ kind, kind ∈ (Call.perform Call.run calls {}).2.tracker.visited := by
    rw [hvisited]
    intro kind
    cases kind <;> decide
  obtain ⟨herror, -, -, hnames⟩ := hrepeated guest (hall guest)
  rw [hvisited] at herror hnames
  exact ⟨lawful_kinds, hanswers, hpaired.trans hanswers, hvisited,
    fun kind ↦ (hset kind).mpr (hall kind), herror, hnames, hcall⟩

end Rank
end RoleResolution
