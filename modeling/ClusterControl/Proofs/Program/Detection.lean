import ClusterControl.Proofs.Program.Duplicates
import ClusterControl.Proofs.Store.Switches

/-!
# Attempts to resolve anomalies

A look at all hosts finds anomalies on one listing of them and then tries to resolve these in turn,
while every attempt may change what the listing showed.  It stops at the first plan that is handed
over, and an attempt that ends before that has left every machine alone.

* `Diary` is what such a program finds and leaves, with the attempts that have come to their ends
  by now and when a plan was handed over.
* `Program.Recounts` says where a program leads from a diary, whatever it is answered.  It holds
  only of programs that leave the machines alone until they hand a plan over, and hand over one at
  most.
* `Resolution.recounts_run` is one attempt, `Detection.recounts_resolveFirst` a series of them, and
  `Detection.recounts_cycle` the whole look.
-/

namespace ClusterControl

variable {α ρ σ ε : Type}

/-! ## Attempts -/

/-- An attempt to resolve an anomaly that has come to its end. -/
structure Attempt where
  host : HostId
  state : LoadState
  resolved : Bool
  deriving DecidableEq

namespace Attempt

/-- The host and what was found there. -/
def anomaly (a : Attempt) : HostId × LoadState := (a.host, a.state)

end Attempt

/-- The attempt whose end the event tells. -/
def Event.attempt? : Event α → Option Attempt
  | .anomalyResolved host state _ _ => some ⟨host, state, true⟩
  | .resolutionFailed host state _ => some ⟨host, state, false⟩
  | _ => none

def Note.attempt? : Note α → Option Attempt
  | .event e => e.attempt?
  | _ => none

/-- What a program that resolves anomalies finds and leaves when it runs alone. -/
structure Diary (α : Type) where
  store : Store α
  /-- The gate is taken. -/
  busy : Bool
  /-- The attempts that have come to their ends. -/
  attempts : List Attempt
  /-- Those that had come to their ends when a plan was handed over. -/
  launched : Option (List Attempt)

variable {lossy late : Bool} {g : Diary α}

/-- After a request `R` holds of the diary and the answer, whatever the hosts answer and, if the
store is lossy, whether or not it loses its backend.  A plan is handed over only once, and every
machine is left alone until then. -/
def Diary.Hears (lossy : Bool) (g : Diary α) :
    (q : Request α) → (Diary α → q.Answer → Prop) → Prop
  | .store q, R => (g.launched = none → ∀ v, g.store.SameOf (q.apply g.store).2 v) ∧
    R { g with store := (q.apply g.store).2 } (q.apply g.store).1 ∧
      (lossy = true → ∀ reason, R g (.error (.backend reason)))
  | .host _, R => ∀ r, R g r
  | .acquire _, R => R { g with busy := true } !g.busy
  | .release _, R => R { g with busy := false } ()
  | .isBusy, R => R g g.busy
  | .phase _, R => ∀ p, R g p
  | .inFlight _, R => ∀ n, R g n
  | .setPhase _ _, R => R g ()
  | .place _ _, R => ∀ p, R g p
  | .enforce e _, R => e = .own ∧ g.launched = none ∧
    ∀ r, R { g with launched := some g.attempts } r
  | .note n, R => R { g with attempts := g.attempts ++ n.attempt?.toList } ()
  | .file _, R => R g ()

theorem Diary.Hears.mono {q : Request α} {R R' : Diary α → q.Answer → Prop}
    (h : g.Hears lossy q R) (hR : ∀ g' a, R g' a → R' g' a) : g.Hears lossy q R' := by
  cases q with
  | store q => exact ⟨h.1, hR _ _ h.2.1, fun hlossy reason => hR _ _ (h.2.2 hlossy reason)⟩
  | host | phase | inFlight | place => exact fun a => hR _ _ (h a)
  | enforce e plan => exact ⟨h.1, h.2.1, fun r => hR _ _ (h.2.2 r)⟩
  | _ => exact hR _ _ h

namespace Program

/-! ## Programs and diaries -/

/-- From a diary a program that runs alone ends with `Q`, whatever it is answered. -/
def Recounts (lossy : Bool) : Program α ρ → Diary α → (Diary α → ρ → Prop) → Prop
  | .done r, g, Q => Q g r
  | .call q next, g, Q => g.Hears lossy q fun g' a => (next a).Recounts lossy g' Q

theorem Recounts.mono {p : Program α ρ} {Q Q' : Diary α → ρ → Prop} (h : p.Recounts lossy g Q)
    (hQ : ∀ g' r, Q g' r → Q' g' r) : p.Recounts lossy g Q' := by
  induction p generalizing g with
  | done r => exact hQ _ _ h
  | call q next ih => exact Diary.Hears.mono h fun _ a ha => ih a ha

theorem recounts_done {r : ρ} {Q : Diary α → ρ → Prop} :
    (done r : Program α ρ).Recounts lossy g Q ↔ Q g r := Iff.rfl

theorem recounts_call {q : Request α} {next : q.Answer → Program α ρ} {Q : Diary α → ρ → Prop} :
    (call q next).Recounts lossy g Q ↔
      g.Hears lossy q fun g' a => (next a).Recounts lossy g' Q := Iff.rfl

theorem recounts_pure {r : ρ} {Q : Diary α → ρ → Prop} :
    (pure r : Program α ρ).Recounts lossy g Q ↔ Q g r := Iff.rfl

theorem recounts_ask {q : Request α} {Q : Diary α → q.Answer → Prop} :
    (ask q).Recounts lossy g Q ↔ g.Hears lossy q Q := Iff.rfl

theorem recounts_bind {p : Program α ρ} {f : ρ → Program α σ} {Q : Diary α → σ → Prop} :
    (p >>= f).Recounts lossy g Q ↔
      p.Recounts lossy g fun g' r => (f r).Recounts lossy g' Q := by
  induction p generalizing g with
  | done r => exact Iff.rfl
  | call q next ih =>
    constructor
    · exact fun h => Diary.Hears.mono h fun _ a ha => (ih a).1 ha
    · exact fun h => Diary.Hears.mono h fun _ a ha => (ih a).2 ha

/-- A workflow goes on after a result, and ends with an error. -/
theorem recounts_run_bind {p : ExceptT ε (Program α) ρ} {f : ρ → ExceptT ε (Program α) σ}
    {Q : Diary α → Except ε σ → Prop} :
    ((p >>= f).run : Program α (Except ε σ)).Recounts lossy g Q ↔
      (p.run : Program α (Except ε ρ)).Recounts lossy g fun g' r =>
        match r with
        | .ok a => ((f a).run : Program α (Except ε σ)).Recounts lossy g' Q
        | .error err => Q g' (.error err) := by
  refine recounts_bind.trans ⟨fun h => h.mono ?_, fun h => h.mono ?_⟩
  · rintro g' (err | a) h' <;> exact h'
  · rintro g' (err | a) h' <;> exact h'

/-- A workflow that finds the gate open takes it, and gives it back however it ends. -/
theorem recounts_gated {a : Activity} {p : ExceptT WorkflowError (Program α) ρ}
    {Q : Diary α → Except WorkflowError ρ → Prop} (hopen : g.busy = false)
    (h : (p.run : Program α (Except WorkflowError ρ)).Recounts lossy { g with busy := true }
      fun g' r => Q { g' with busy := false } r) : (gated a p).Recounts lossy g Q := by
  refine recounts_bind.2 ?_
  rw [recounts_ask, Diary.Hears, hopen]
  exact recounts_bind.2 (h.mono fun _ _ hr => hr)

end Program

/-! ## Programs in which nothing happens -/

/-- The request leaves the records of all machines. -/
def StoreRequest.Spares (q : StoreRequest α) : Prop :=
  ∀ (s : Store α) v, s.SameOf (q.apply s).2 v

theorem StoreRequest.spares_listHosts (n : Nat) (excludePassive monitoring : Bool) :
    (listHosts n excludePassive monitoring : StoreRequest α).Spares := fun s v => .refl s v

theorem StoreRequest.spares_findHost (host : HostId) (n : Nat) :
    (findHost host n : StoreRequest α).Spares := fun s v => .refl s v

theorem StoreRequest.spares_transition (host : HostId) (expected next : HostStatus) :
    (transition host expected next : StoreRequest α).Spares := by
  intro s v
  by_cases hstatus : s.status? host = some expected
  · obtain ⟨t, ht, hswitches, -⟩ := Store.switches_transition hstatus next
    rw [apply, ht]
    exact hswitches.sameOf v
  · have hsame : (s.transition host expected next).2 = s := by
      unfold Store.transition
      split
      · rfl
      · rename_i h hget
        rw [if_neg]
        intro hexpected
        exact hstatus (by rw [Store.status?, hget, Option.map_some, hexpected])
    rw [apply, hsame]
    exact .refl s v

namespace Program

/-- The program changes nothing in any diary but the store.  A late one is for diaries with a plan
that was handed over. -/
def Discreet (lossy late : Bool) (p : Program α ρ) : Prop :=
  ∀ g : Diary α, (late = true → g.launched ≠ none) →
    p.Recounts lossy g fun g' _ => ∃ u, g' = { g with store := u }

theorem discreet_pure (r : ρ) : (pure r : Program α ρ).Discreet lossy late :=
  fun g _ => recounts_pure.2 ⟨g.store, rfl⟩

theorem discreet_store {q : StoreRequest α} (hq : q.Spares) :
    (store q).Discreet lossy false :=
  fun g _ => recounts_ask.2 ⟨fun _ => hq g.store, ⟨_, rfl⟩, fun _ _ => ⟨g.store, rfl⟩⟩

/-- After a plan was handed over, machines may change. -/
theorem discreet_store_late (q : StoreRequest α) : (store q).Discreet lossy true :=
  fun g hlate => recounts_ask.2
    ⟨fun hnone => absurd hnone (hlate rfl), ⟨_, rfl⟩, fun _ _ => ⟨g.store, rfl⟩⟩

theorem discreet_host (q : HostRequest α) : (host q).Discreet lossy late :=
  fun g _ => recounts_ask.2 fun _ => ⟨g.store, rfl⟩

theorem discreet_setPhase (e : Engine) (phase : ResolutionPhase) :
    (ask (.setPhase e phase) : Program α Unit).Discreet lossy late :=
  fun g _ => recounts_ask.2 ⟨g.store, rfl⟩

theorem discreet_note {n : Note α} (hn : n.attempt? = none) :
    (ask (.note n)).Discreet lossy late := by
  intro g _
  rw [recounts_ask, Diary.Hears, hn, Option.toList_none, List.append_nil]
  exact ⟨g.store, rfl⟩

theorem discreet_count (x : Series) (n : Nat) : (count x n : Program α Unit).Discreet lossy late :=
  discreet_note rfl

theorem discreet_event {e : Event α} (he : e.attempt? = none) :
    (event e).Discreet lossy late := discreet_note he

theorem Discreet.bind {p : Program α ρ} {f : ρ → Program α σ} (hp : p.Discreet lossy late)
    (hf : ∀ r, (f r).Discreet lossy late) : (p >>= f).Discreet lossy late := by
  refine fun g hlate => recounts_bind.2 ((hp g hlate).mono ?_)
  rintro _ r ⟨u, rfl⟩
  exact hf r _ hlate

/-- A program goes on after a part in which nothing happens. -/
theorem Discreet.recounts_bind {p : Program α ρ} (hp : p.Discreet lossy false)
    {f : ρ → Program α σ} {Q : Diary α → σ → Prop}
    (hf : ∀ u r, (f r).Recounts lossy { g with store := u } Q) : (p >>= f).Recounts lossy g Q := by
  refine Program.recounts_bind.2 ((hp g (by simp)).mono ?_)
  rintro _ r ⟨u, rfl⟩
  exact hf u r

theorem Discreet.recounts_bind_late {p : Program α ρ} (hp : p.Discreet lossy true)
    (hlaunched : g.launched ≠ none) {f : ρ → Program α σ} {Q : Diary α → σ → Prop}
    (hf : ∀ u r, (f r).Recounts lossy { g with store := u } Q) : (p >>= f).Recounts lossy g Q := by
  refine Program.recounts_bind.2 ((hp g fun _ => hlaunched).mono ?_)
  rintro _ r ⟨u, rfl⟩
  exact hf u r

/-- So does a workflow, which may also have ended with an error. -/
theorem Discreet.recounts_run_bind {p : ExceptT ε (Program α) ρ}
    (hp : (p.run : Program α (Except ε ρ)).Discreet lossy false)
    {f : ρ → ExceptT ε (Program α) σ} {Q : Diary α → Except ε σ → Prop}
    (hf : ∀ u a, ((f a).run : Program α (Except ε σ)).Recounts lossy { g with store := u } Q)
    (herror : ∀ u err, Q { g with store := u } (.error err)) :
    ((p >>= f).run : Program α (Except ε σ)).Recounts lossy g Q := by
  refine Program.recounts_run_bind.2 ((hp g (by simp)).mono ?_)
  rintro _ (err | a) ⟨u, rfl⟩
  · exact herror u err
  · exact hf u a

theorem discreet_run_lift {p : Program α ρ} (hp : p.Discreet lossy late) :
    ((ExceptT.lift p : ExceptT ε (Program α) ρ).run : Program α (Except ε ρ)).Discreet lossy late :=
  hp.bind fun r => discreet_pure (Except.ok r)

-- a program is read one request at a time, and not run ahead
attribute [irreducible] Recounts

end Program

open Program

namespace Power

theorem discreet_wakeOne (host : HostId) :
    (wakeOne host : Program α Bool).Discreet lossy false := by
  refine (discreet_store (StoreRequest.spares_transition _ _ _)).bind ?_
  rintro (err | _ | _)
  · exact discreet_pure _
  · exact discreet_pure _
  · refine (discreet_host _).bind ?_
    rintro (err | _)
    · refine (discreet_store (StoreRequest.spares_transition _ _ _)).bind ?_
      rintro (err | _)
      · exact discreet_pure _
      · exact (discreet_event rfl).bind fun _ => discreet_pure _
    · exact (discreet_count _ _).bind fun _ => (discreet_event rfl).bind fun _ => discreet_pure _

theorem discreet_wakeAll (hosts : List HostId) :
    (wakeAll hosts : Program α (List HostId)).Discreet lossy false := by
  induction hosts with
  | nil => exact discreet_pure _
  | cons host rest ih =>
    exact (discreet_wakeOne host).bind fun _ => ih.bind fun _ => discreet_pure _

end Power

namespace Commit

/-- The outcomes of a plan are committed after it was handed over. -/
theorem discreet_report (r : EnforcementReport) :
    (report r : Program α Unit).Discreet lossy true := by
  unfold report
  induction r.results with
  | nil => exact discreet_pure _
  | cons r rest ih =>
    refine Discreet.bind ?_ fun _ => ih
    refine (discreet_count _ _).bind fun _ => (discreet_event rfl).bind fun _ => ?_
    split
    · refine (discreet_store_late _).bind ?_
      rintro (err | _)
      · exact discreet_pure _
      · exact (discreet_store_late _).bind fun _ => discreet_pure _
    · exact (discreet_store_late _).bind fun _ => discreet_pure _

end Commit

/-! ## One attempt -/

namespace Resolution

theorem discreet_storeOrAbandon {q : StoreRequest α} (hq : q.Spares) :
    ((storeOrAbandon q).run :
      Program α (Except ResolutionError q.Answer)).Discreet lossy false := by
  refine (discreet_store hq).bind ?_
  rintro (err | a) <;> exact discreet_pure _

theorem discreet_wakeOrAbandon (hosts : List HostId) :
    ((wakeOrAbandon hosts).run : Program α (Except ResolutionError Unit)).Discreet lossy false := by
  unfold wakeOrAbandon
  split
  · exact discreet_pure _
  · refine ((Power.discreet_wakeAll hosts).bind ?_).bind ?_
    · rintro (_ | _) <;> exact discreet_pure _
    · rintro (err | _) <;> exact discreet_pure _

/-- A resolution that was carried out is put on record. -/
theorem recounts_conclude (r : ResolutionReport) (hlaunched : g.launched ≠ none) :
    (conclude r).Recounts lossy g fun g' _ =>
      ∃ u, g' = { g with store := u, attempts := g.attempts ++ [⟨r.host, r.state, true⟩] } := by
  have hend : ∀ u, (do
      event (.anomalyResolved r.host r.state r.enforcement.size r.enforcement.failed)
      ask (.setPhase .own .idle) : Program α Unit).Recounts lossy { g with store := u } fun g' _ =>
        ∃ u, g' = { g with store := u, attempts := g.attempts ++ [⟨r.host, r.state, true⟩] } :=
    fun u => Program.recounts_bind.2 (recounts_ask.2 (recounts_ask.2 ⟨u, rfl⟩))
  refine (Commit.discreet_report _).recounts_bind_late hlaunched fun u _ => ?_
  refine (discreet_count _ _).recounts_bind_late (g := { g with store := u }) hlaunched
    fun v _ => ?_
  dsimp only
  split
  · exact (discreet_count _ _).recounts_bind_late (g := { g with store := v }) hlaunched
      fun w _ => hend w
  · exact hend v

/-- A resolution that was given up is put on record. -/
theorem recounts_abandon (host : HostId) (state : LoadState) (err : ResolutionError) :
    (abandon host state err).Recounts lossy g fun g' _ =>
      ∃ u, g' = { g with store := u, attempts := g.attempts ++ [⟨host, state, false⟩] } :=
  (discreet_count _ _).recounts_bind fun u _ => recounts_ask.2 ⟨u, rfl⟩

/-- From the diary `g` a plan that relieves a host was handed over and has been carried out, or it
has not come that far. -/
def Relieved (g : Diary α) (host : HostId) (state : LoadState) (g' : Diary α) :
    Except ResolutionError ResolutionReport → Prop
  | .ok r => r.host = host ∧ r.state = state ∧
    ∃ u, g' = { g with store := u, launched := some g.attempts }
  | .error _ => ∃ u, g' = { g with store := u }

/-- From the diary `g` an attempt to resolve an anomaly with the cluster to itself has come to its
end. -/
def Attempted (g : Diary α) (host : HostId) (state : LoadState) (g' : Diary α) :
    Except WorkflowError ResolutionReport → Prop
  | .ok _ => ∃ u, g' = { g with
      store := u, attempts := g.attempts ++ [⟨host, state, true⟩],
      launched := some g.attempts }
  | .error err => err ≠ .busy ∧
    ∃ u, g' = { g with store := u, attempts := g.attempts ++ [⟨host, state, false⟩] }

/-- It does not matter what the store was and is. -/
theorem Relieved.store {u v : Store α} {host : HostId} {state : LoadState} {g' : Diary α}
    {r : Except ResolutionError ResolutionReport}
    (h : Relieved { g with store := u } host state g' r) :
    Relieved g host state { g' with store := v } r := by
  cases r with
  | error err =>
    obtain ⟨w, rfl⟩ := h
    exact ⟨v, rfl⟩
  | ok r =>
    obtain ⟨hhost, hstate, w, rfl⟩ := h
    exact ⟨hhost, hstate, v, rfl⟩

variable [Quantity α] (c : Settings α)

/-- Relieving a host hands a plan over last of all; what may go wrong goes wrong before that. -/
theorem recounts_relieve (hbefore : g.launched = none) (host : HostId) (state : LoadState) :
    ((relieve c .own host state).run :
      Program α (Except ResolutionError ResolutionReport)).Recounts lossy g
        (Relieved g host state) := by
  unfold relieve
  split
  · exact recounts_pure.2 ⟨g.store, rfl⟩
  refine (discreet_storeOrAbandon (StoreRequest.spares_findHost _ _)).recounts_run_bind ?_
    fun u _ => ⟨u, rfl⟩
  rintro u (_ | source)
  · exact recounts_pure.2 ⟨u, rfl⟩
  refine (discreet_run_lift (discreet_setPhase _ _)).recounts_run_bind ?_ fun u _ => ⟨u, rfl⟩
  intro u _
  refine (discreet_storeOrAbandon (StoreRequest.spares_listHosts _ _ _)).recounts_run_bind ?_
    fun u _ => ⟨u, rfl⟩
  intro u listed
  dsimp only
  split
  · exact recounts_pure.2 ⟨u, rfl⟩
  split
  · exact recounts_pure.2 ⟨u, rfl⟩
  refine (discreet_wakeOrAbandon _).recounts_run_bind ?_ fun u _ => ⟨u, rfl⟩
  intro u _
  refine (discreet_run_lift (discreet_setPhase _ _)).recounts_run_bind ?_ fun u _ => ⟨u, rfl⟩
  intro u _
  refine recounts_run_bind.2 (Program.recounts_bind.2 (recounts_ask.2 ⟨rfl, hbefore, fun r => ?_⟩))
  exact recounts_pure.2 (recounts_pure.2 ⟨rfl, rfl, u, rfl⟩)

theorem recounts_resolve (hbefore : g.launched = none) (host : HostId) (state : LoadState) :
    (resolve c .own host state).Recounts lossy g (Relieved g host state) := by
  refine (discreet_setPhase _ _).recounts_bind fun u _ => ?_
  refine Program.recounts_bind.2 ((recounts_relieve (g := { g with store := u }) c hbefore host
    state).mono fun g' r hr => ?_)
  refine (discreet_setPhase _ _).recounts_bind fun v _ => ?_
  exact recounts_pure.2 hr.store

theorem recounts_run (hopen : g.busy = false) (hbefore : g.launched = none) (host : HostId)
    (state : LoadState) :
    (run c host state).Recounts lossy g (Attempted g host state) := by
  obtain ⟨s, busy, attempts, launched⟩ := g
  obtain rfl : busy = false := hopen
  refine recounts_gated rfl ?_
  refine Program.recounts_bind.2
    ((recounts_resolve (g := ⟨s, true, attempts, launched⟩) c hbefore host state).mono ?_)
  rintro g' (err | r) hr
  · obtain ⟨u, rfl⟩ := hr
    refine Program.recounts_bind.2 ((recounts_abandon host state err).mono ?_)
    rintro _ _ ⟨v, rfl⟩
    exact recounts_pure.2 ⟨by simp, v, rfl⟩
  · obtain ⟨rfl, rfl, u, rfl⟩ := hr
    refine Program.recounts_bind.2 ((recounts_conclude r (by simp)).mono ?_)
    rintro _ _ ⟨v, rfl⟩
    exact recounts_pure.2 ⟨v, rfl⟩

end Resolution

/-! ## The attempts of one look -/

namespace Detection

/-- The attempt to resolve an anomaly. -/
def Anomaly.tried (a : Anomaly α) (resolved : Bool) : Attempt := ⟨a.host, a.state, resolved⟩

/-- What a look reports of an anomaly. -/
def Anomaly.found (a : Anomaly α) : HostId × LoadState := (a.host, a.state)

/-- After the attempts of the past, anomalies were tried in turn: every attempt failed, or one
succeeded after all before it had failed, and the plan was handed over in that one.  What is told
are all attempts, and those that had come to their ends when the plan was handed over. -/
inductive Tries (l : List (Anomaly α)) (past : List Attempt) :
    List Attempt → Option (List Attempt) → Prop
  | exhausted : Tries l past (past ++ l.map (·.tried false)) none
  | succeeded (before : List (Anomaly α)) (a : Anomaly α) (after : List (Anomaly α))
    (h : l = before ++ a :: after) :
    Tries l past (past ++ before.map (·.tried false) ++ [a.tried true])
      (some (past ++ before.map (·.tried false)))

namespace Tries

variable {l : List (Anomaly α)} {past attempts : List Attempt} {launched : Option (List Attempt)}

theorem nil (past : List Attempt) : Tries ([] : List (Anomaly α)) past past none := by
  have hnone : Tries ([] : List (Anomaly α)) past _ none := exhausted
  rwa [List.map_nil, List.append_nil] at hnone

/-- The first anomaly is resolved. -/
theorem first (a : Anomaly α) (rest : List (Anomaly α)) (past : List Attempt) :
    Tries (a :: rest) past (past ++ [a.tried true]) (some past) := by
  have hfirst : Tries (a :: rest) past _ _ := succeeded [] a rest rfl
  rwa [List.map_nil, List.append_nil] at hfirst

/-- One more anomaly was tried before. -/
theorem cons {a : Anomaly α} (h : Tries l (past ++ [a.tried false]) attempts launched) :
    Tries (a :: l) past attempts launched := by
  cases h with
  | exhausted =>
    rw [List.append_assoc]
    exact .exhausted
  | succeeded before b after hl =>
    rw [List.append_assoc past]
    exact succeeded (a :: before) b after (congrArg (a :: ·) hl)

/-- Anomalies are tried in the order in which they are found. -/
theorem tried (h : Tries l [] attempts launched) :
    attempts.map Attempt.anomaly <+: l.map Anomaly.found := by
  cases h with
  | exhausted =>
    rw [List.nil_append, List.map_map]
    exact List.prefix_rfl
  | succeeded before a after hl =>
    subst hl
    refine ⟨after.map Anomaly.found, ?_⟩
    rw [List.nil_append, List.map_append, List.map_map, List.append_assoc, List.map_append]
    rfl

/-- All are tried, unless one is resolved. -/
theorem all_tried (h : Tries l [] attempts launched)
    (hfailed : ∀ a ∈ attempts, a.resolved = false) :
    attempts.map Attempt.anomaly = l.map Anomaly.found := by
  cases h with
  | exhausted =>
    rw [List.nil_append, List.map_map]
    rfl
  | succeeded before a after hl =>
    have hlast := hfailed (a.tried true) (by simp)
    exact absurd hlast (by simp [Anomaly.tried])

/-- All attempts but the last one have failed. -/
theorem failed (h : Tries l [] attempts launched) :
    ∀ a ∈ attempts.dropLast, a.resolved = false := by
  have hfailed : ∀ {k : List (Anomaly α)}, ∀ a ∈ k.map (·.tried false), a.resolved = false := by
    intro k a ha
    obtain ⟨b, -, rfl⟩ := List.mem_map.1 ha
    rfl
  cases h with
  | exhausted => exact fun a ha => hfailed a (List.dropLast_subset _ ha)
  | succeeded before a after hl =>
    rw [List.dropLast_concat]
    exact hfailed

/-- The plan is handed over in the last attempt. -/
theorem last (h : Tries l past attempts launched) {before : List Attempt}
    (hbefore : launched = some before) : ∃ a, attempts = before ++ [a] ∧ a.resolved = true := by
  cases h with
  | exhausted => exact absurd hbefore (by simp)
  | succeeded prior a after hl =>
    rw [← Option.some.inj hbefore]
    exact ⟨a.tried true, rfl, rfl⟩

end Tries

variable [Quantity α] (c : Settings α)

/-! ### What is found -/

/-- The active hosts of a store, as a look at it shows them. -/
def active (s : Store α) : List (Host α) :=
  (s.hosts.values.filter (·.status == .active)).map (·.trim c.estimator.window)

/-- The active hosts that the detector finds overloaded. -/
def overloaded (s : Store α) : List HostId :=
  ((active c s).filter (c.demandEstimator.classify · == .overloaded)).map Host.id

/-- The active hosts with machines that the detector finds underloaded. -/
def underloaded (s : Store α) : List HostId :=
  ((active c s).filter fun h =>
    c.demandEstimator.classify h == .underloaded && h.hasVms).map Host.id

/-- What a look at a store reports: overloaded hosts first. -/
def found (s : Store α) : List (HostId × LoadState) :=
  (overloaded c s).map (·, .overloaded) ++ (underloaded c s).map (·, .underloaded)

/-- The anomalies that a look finds in a store, in the order in which they are tried. -/
def anomalies (s : Store α) : List (Anomaly α) :=
  inOrder ((s.hostList c.estimator.window true true).filterMap (inspect c.demandEstimator))

/-- An anomaly is that of an active host that is overloaded, or underloaded with machines. -/
theorem inspect_eq (e : Estimator α) (h : Host α) : inspect e h =
    if h.status == .active &&
      (e.classify h == .overloaded || e.classify h == .underloaded && h.hasVms) then
      some ⟨h.id, e.classify h, e.normalized h⟩
    else none := by
  have hinspect : inspect e h =
      if h.status != .active || !(e.classify h).isAnomaly ||
        (e.classify h == .underloaded && !h.hasVms) then none
      else some ⟨h.id, e.classify h, e.normalized h⟩ := rfl
  rw [hinspect, bne]
  cases h.status == .active <;> cases e.classify h <;> cases h.hasVms <;> rfl

theorem map_found_overloaded (e : Estimator α) (l : List (Host α)) :
    ((l.filterMap (inspect e)).filter (·.state == .overloaded)).map Anomaly.found =
      (l.filter fun h => h.status == .active && e.classify h == .overloaded).map
        fun h => (h.id, .overloaded) := by
  induction l with
  | nil => rfl
  | cons h rest ih =>
    rw [List.filterMap_cons, inspect_eq, List.filter_cons]
    cases h.status == .active <;> cases e.classify h <;> cases h.hasVms <;>
      simp [ih, Anomaly.found]

theorem map_found_underloaded (e : Estimator α) (l : List (Host α)) :
    ((l.filterMap (inspect e)).filter (·.state != .overloaded)).map Anomaly.found =
      (l.filter fun h => h.status == .active &&
        (e.classify h == .underloaded && h.hasVms)).map fun h => (h.id, .underloaded) := by
  induction l with
  | nil => rfl
  | cons h rest ih =>
    rw [List.filterMap_cons, inspect_eq, List.filter_cons]
    cases h.status == .active <;> cases e.classify h <;> cases h.hasVms <;>
      simp [ih, Anomaly.found]

omit [Quantity α] in
/-- The listing that leaves passive hosts out shows every active one. -/
theorem active_eq (s : Store α) :
    active c s = (s.hostList c.estimator.window true true).filter (·.status == .active) := by
  have hpassive : ∀ h : Host α,
      (h.status == .active && !(true && h.isPassive)) = (h.status == .active) := by
    intro h
    rw [Host.isPassive]
    cases h.status <;> rfl
  have htrim : ((fun h : Host α => h.status == .active) ∘
      fun h : Host α => h.trim c.estimator.window) = fun h => h.status == .active := rfl
  simp only [active, Store.hostList, if_true, List.filter_map, htrim, List.filter_filter, hpassive]

theorem map_found_anomalies (s : Store α) :
    (anomalies c s).map Anomaly.found = found c s := by
  rw [anomalies, inOrder, List.map_append, map_found_overloaded, map_found_underloaded, found,
    overloaded, underloaded, active_eq, List.filter_filter, List.filter_filter, List.map_map,
    List.map_map]
  simp only [Bool.and_comm]
  rfl

omit [Quantity α] in
/-- Active hosts are shown by their ids, lowest first. -/
theorem sorted_active {s : Store α} (hs : s.Keyed) :
    ((active c s).map Host.id).Pairwise (· < ·) := by
  rw [active, List.map_map]
  exact hs.sorted_values.sublist (List.filter_sublist.map Host.id)

theorem sorted_overloaded {s : Store α} (hs : s.Keyed) :
    (overloaded c s).Pairwise (· < ·) :=
  (sorted_active c hs).sublist (List.filter_sublist.map Host.id)

theorem sorted_underloaded {s : Store α} (hs : s.Keyed) :
    (underloaded c s).Pairwise (· < ·) :=
  (sorted_active c hs).sublist (List.filter_sublist.map Host.id)

/-! ### What is tried -/

omit [Quantity α] in
theorem discreet_announce (l : List (Anomaly α)) : (announce l).Discreet lossy late := by
  induction l with
  | nil => exact discreet_pure _
  | cons a rest ih =>
    exact (discreet_count _ _).bind fun _ => (discreet_event rfl).bind fun _ => ih

/-- Anomalies are tried until one attempt succeeds. -/
theorem recounts_resolveFirst (hopen : g.busy = false) (hbefore : g.launched = none)
    (l : List (Anomaly α)) : (resolveFirst c l).Recounts lossy g fun g' _ =>
      Tries l g.attempts g'.attempts g'.launched := by
  induction l generalizing g with
  | nil =>
    refine recounts_pure.2 ?_
    rw [hbefore]
    exact .nil g.attempts
  | cons a rest ih =>
    refine Program.recounts_bind.2
      ((Resolution.recounts_run c hopen hbefore a.host a.state).mono ?_)
    rintro g' (err | r) hend
    · obtain ⟨hbusy, u, rfl⟩ := hend
      have hrest := ih (g := { g with store := u, attempts := g.attempts ++ [a.tried false] })
        hopen hbefore
      cases err with
      | busy => exact absurd rfl hbusy
      | _ => exact hrest.mono fun _ _ h => h.cons
    · obtain ⟨u, rfl⟩ := hend
      exact recounts_pure.2 (.first a rest g.attempts)

/-- A look reports the anomalies of the store that it has found and tries them in turn, unless the
store loses its backend before they are listed: then it has found none. -/
theorem recounts_cycle (hopen : g.busy = false) (hbefore : g.launched = none) :
    (cycle c).Recounts lossy g fun g' r =>
      ∃ l, (l = anomalies c g.store ∨ lossy = true ∧ l = []) ∧ r = l.map Anomaly.found ∧
        Tries l g.attempts g'.attempts g'.launched := by
  refine Program.recounts_bind.2 (recounts_ask.2 ⟨fun _ => StoreRequest.spares_listHosts _ _ _ _,
    ?_, fun hlossy reason => ?_⟩)
  · refine (discreet_announce _).recounts_bind fun u _ => ?_
    refine Discreet.recounts_bind (discreet_note rfl) fun v _ => ?_
    refine Program.recounts_bind.2 ((recounts_resolveFirst (g := { g with store := v }) c hopen
      hbefore _).mono fun g' _ htries => ?_)
    exact recounts_pure.2 ⟨_, .inl rfl, rfl, htries⟩
  · refine Discreet.recounts_bind (discreet_note rfl) fun u _ => ?_
    refine recounts_pure.2 ⟨[], .inr ⟨hlossy, rfl⟩, rfl, ?_⟩
    rw [hbefore]
    exact .nil g.attempts

end Detection

end ClusterControl
