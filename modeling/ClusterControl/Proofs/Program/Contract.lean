import ClusterControl.Workflow.Job

/-!
# Contracts of programs

Tasks take turns on one store.  A contract says what each of them may take for granted and what it
owes the others: every store stays good, and while one task holds the gate the others change the
store only in ways that this task puts up with.

* `Contract.Meets` says that a program keeps a contract from some standing on, whatever answers it
  gets.  It is read off one request at a time.
* `Contract.Supports` says of a store that requests of some kind may follow in any number and order.
  `Contract.Holds.asks` makes such a request.
-/

namespace ClusterControl

variable {α ρ σ ε : Type}

/-- Where a task stands with respect to the gate. -/
inductive Standing (α : Type)
  | outside
  /-- It holds the gate for an activity, in a phase of resolution, and left the store like this. -/
  | inside (a : Activity) (p : ResolutionPhase) (last : Store α)

structure Contract (α : Type) where
  /-- What holds of every store. -/
  good : Store α → Prop
  /-- What tasks may do to the store while another one holds the gate. -/
  rely : Store α → Store α → Prop
  /-- Whether a task outside the gate may make a request now, given whether the gate is taken. -/
  admits : Job α → Bool → Store α → StoreRequest α → Prop
  /-- The batches that may be submitted. -/
  accepts : List (Vm α) → Prop
  /-- What the holder of the gate has done to the store once it has woken some hosts. -/
  wakes : List HostId → Store α → Store α → Prop
  /-- Programs may take the gate and give it back. -/
  gated : Prop
  /-- Nothing is taken for granted: answers may be anything, and so may stores. -/
  lax : Prop
  refl : ∀ s, rely s s
  trans : ∀ {s t u}, rely s t → rely t u → rely s u
  good_of_lax : lax → ∀ s, good s
  rely_of_lax : lax → ∀ s t, rely s t
  wakes_nil : ∀ s, wakes [] s s

namespace Contract

/-- What a program that may fail ends with, said of its result and of its error. -/
def Ends (Q : Standing α → ρ → Prop) (E : Standing α → ε → Prop) (g : Standing α) :
    Except ε ρ → Prop
  | .ok r => Q g r
  | .error e => E g e

@[simp]
theorem ends_ok {Q : Standing α → ρ → Prop} {E : Standing α → ε → Prop}
    {g : Standing α} {r : ρ} :
    Ends Q E g (.ok r) ↔ Q g r := Iff.rfl

/-- From this store on, requests that satisfy `W` may follow in any number and order, among whatever
the others do. -/
def Supports (C : Contract α) (s : Store α) (W : StoreRequest α → Prop) : Prop :=
  ∃ stays : Store α → Prop, stays s ∧ (∀ {t u}, stays t → C.good u → C.rely t u → stays u) ∧
    ∀ {q t}, W q → C.good t → stays t → C.good (q.apply t).2 ∧ stays (q.apply t).2

variable {C : Contract α}

theorem Supports.rely {s t : Store α} {W : StoreRequest α → Prop} (h : C.Supports s W)
    (ht : C.good t) (hst : C.rely s t) : C.Supports t W := by
  obtain ⟨stays, hs, hrely, hstep⟩ := h
  exact ⟨stays, hrely hs ht hst, hrely, hstep⟩

theorem Supports.apply {s : Store α} {W : StoreRequest α → Prop} (h : C.Supports s W)
    (hs : C.good s) {q : StoreRequest α} (hq : W q) :
    C.good (q.apply s).2 ∧ C.Supports (q.apply s).2 W := by
  obtain ⟨stays, hstays, hrely, hstep⟩ := h
  obtain ⟨hgood, hnext⟩ := hstep hq hs hstays
  exact ⟨hgood, stays, hnext, hrely, hstep⟩

/-- Where nothing is taken for granted every store supports everything. -/
theorem supports_of_lax (h : C.lax) (s : Store α) (W : StoreRequest α → Prop) : C.Supports s W :=
  ⟨fun _ => True, trivial, fun _ _ _ => trivial, fun _ _ _ => ⟨C.good_of_lax h _, trivial⟩⟩

/-- The task holds the gate, and its requests that satisfy `W` are supported. -/
def Holds (C : Contract α) (a : Activity) (p : ResolutionPhase) (W : StoreRequest α → Prop)
    (g : Standing α) : Prop :=
  ∃ s, g = .inside a p s ∧ C.Supports s W

variable [Quantity α]

/-- A request is allowed to a task in its standing, and `R` holds of its standing and the answer
afterwards, whichever answer it is. -/
def Asks (C : Contract α) (c : Settings α) (j : Job α) (g : Standing α) :
    (q : Request α) → (Standing α → q.Answer → Prop) → Prop
  | .store q, R =>
    match g with
    | .outside =>
      (∀ busy s, C.good s → C.admits j busy s q → C.good (q.apply s).2 ∧
        (busy = true → C.rely s (q.apply s).2) ∧ R .outside (q.apply s).1) ∧
        (C.lax → ∀ e, R .outside (.error e))
    | .inside a p last =>
      (∀ s, C.good s → C.rely last s → C.good (q.apply s).2 ∧
        R (.inside a p (q.apply s).2) (q.apply s).1) ∧
        (C.lax → ∀ e, R (.inside a p last) (.error e))
  | .host _, R => ∀ r, R g r
  | .acquire a, R =>
    match g with
    | .outside => C.gated ∧ R .outside false ∧ ∀ s, C.good s → R (.inside a .idle s) true
    | .inside .. => False
  | .release a, R =>
    match g with
    | .outside => False
    | .inside b p _ => C.gated ∧ a = b ∧ p = .idle ∧ R .outside ()
  | .isBusy, R => ∀ busy, R g busy
  | .phase _, R => ∀ p, R g p
  | .inFlight _, R => ∀ n, R g n
  | .setPhase .trial _, R => R g ()
  | .setPhase .own p, R =>
    match g with
    | .outside => False
    | .inside a _ last => a = .resolvingAnomaly ∧ R (.inside a p last) ()
  | .place vms hosts, R => ∀ plan,
    (C.lax ∨ ∃ cursor, plan = (Placement.place c.placementPolicy cursor vms hosts).plan) → R g plan
  | .enforce _ plan, R => ∀ r, (C.lax ∨ ∀ x ∈ r.results, x.migration ∈ plan.moves) → R g r
  | .note _, R => R g ()
  | .file _, R => R g ()

/-- From a standing on, a program asks only what it is allowed to ask, and ends with `Q`. -/
def Meets (C : Contract α) (c : Settings α) (j : Job α) :
    Program α ρ → Standing α → (Standing α → ρ → Prop) → Prop
  | .done r, g, Q => Q g r
  | .call q next, g, Q => C.Asks c j g q fun g' a => Meets C c j (next a) g' Q

variable {c : Settings α} {j : Job α} {g : Standing α}

/-- A weaker statement about the answer follows. -/
theorem Asks.mono {q : Request α} {R R' : Standing α → q.Answer → Prop}
    (h : C.Asks c j g q R) (hR : ∀ g' a, R g' a → R' g' a) : C.Asks c j g q R' := by
  cases q with
  | store q =>
    cases g with
    | outside =>
      refine ⟨fun busy s hs hq => ?_, fun hlax e => hR _ _ (h.2 hlax e)⟩
      obtain ⟨hgood, hrely, hr⟩ := h.1 busy s hs hq
      exact ⟨hgood, hrely, hR _ _ hr⟩
    | inside a p last =>
      refine ⟨fun s hs hq => ?_, fun hlax e => hR _ _ (h.2 hlax e)⟩
      obtain ⟨hgood, hr⟩ := h.1 s hs hq
      exact ⟨hgood, hR _ _ hr⟩
  | host | isBusy | phase | inFlight => exact fun r => hR _ _ (h r)
  | acquire a =>
    cases g with
    | outside => exact ⟨h.1, hR _ _ h.2.1, fun s hs => hR _ _ (h.2.2 s hs)⟩
    | inside => exact h
  | release a =>
    cases g with
    | outside => exact h
    | inside => exact ⟨h.1, h.2.1, h.2.2.1, hR _ _ h.2.2.2⟩
  | setPhase e p =>
    cases e with
    | trial => exact hR _ _ h
    | own =>
      cases g with
      | outside => exact h
      | inside => exact ⟨h.1, hR _ _ h.2⟩
  | place vms hosts => exact fun plan hplan => hR _ _ (h plan hplan)
  | enforce e plan => exact fun r hr => hR _ _ (h r hr)
  | note | file => exact hR _ _ h

theorem Meets.mono {p : Program α ρ} {Q Q' : Standing α → ρ → Prop} (h : C.Meets c j p g Q)
    (hQ : ∀ g' r, Q g' r → Q' g' r) : C.Meets c j p g Q' := by
  induction p generalizing g with
  | done r => exact hQ _ _ h
  | call q next ih => exact Asks.mono h fun _ a ha => ih a ha

/-- A supported request may be made, and leaves the rest supported. -/
theorem Holds.asks {a : Activity} {p : ResolutionPhase} {W : StoreRequest α → Prop}
    (h : C.Holds a p W g) {q : StoreRequest α} (hq : W q)
    {R : Standing α → Except StoreError q.Answer → Prop}
    (hR : ∀ g' r, C.Holds a p W g' → R g' r) : C.Asks c j g (.store q) R := by
  obtain ⟨last, rfl, hlast⟩ := h
  refine ⟨fun s hs hrely => ?_, fun _ e => hR _ _ ⟨last, rfl, hlast⟩⟩
  obtain ⟨hgood, hnext⟩ := (hlast.rely hs hrely).apply hs hq
  exact ⟨hgood, hR _ _ ⟨_, rfl, hnext⟩⟩

/-! ## Reading a program -/

@[simp]
theorem meets_pure {r : ρ} {Q : Standing α → ρ → Prop} :
    C.Meets c j (pure r) g Q ↔ Q g r := Iff.rfl

@[simp]
theorem meets_ask {q : Request α} {Q : Standing α → q.Answer → Prop} :
    C.Meets c j (Program.ask q) g Q ↔ C.Asks c j g q Q := Iff.rfl

@[simp]
theorem meets_bind {p : Program α ρ} {f : ρ → Program α σ} {Q : Standing α → σ → Prop} :
    C.Meets c j (p >>= f) g Q ↔ C.Meets c j p g fun g' r => C.Meets c j (f r) g' Q := by
  induction p generalizing g with
  | done r => exact Iff.rfl
  | call q next ih =>
    constructor
    · exact fun h => Asks.mono h fun _ a ha => (ih a).1 ha
    · exact fun h => Asks.mono h fun _ a ha => (ih a).2 ha

@[simp]
theorem meets_map {p : Program α ρ} {f : ρ → σ} {Q : Standing α → σ → Prop} :
    C.Meets c j (f <$> p) g Q ↔ C.Meets c j p g fun g' r => Q g' (f r) :=
  meets_bind

/-- A program that may fail keeps the contract from a standing on; it ends with `Q`, or it fails
with `E`. -/
def Tries (C : Contract α) (c : Settings α) (j : Job α) (x : ExceptT ε (Program α) ρ)
    (g : Standing α) (Q : Standing α → ρ → Prop) (E : Standing α → ε → Prop) : Prop :=
  C.Meets c j x.run g (Ends Q E)

variable {Q : Standing α → ρ → Prop} {E : Standing α → ε → Prop}

@[simp]
theorem tries_pure {r : ρ} : C.Tries c j (pure r : ExceptT ε (Program α) ρ) g Q E ↔ Q g r := Iff.rfl

@[simp]
theorem tries_throw {e : ε} : C.Tries c j (throw e : ExceptT ε (Program α) ρ) g Q E ↔ E g e :=
  Iff.rfl

@[simp]
theorem tries_mk {p : Program α (Except ε ρ)} :
    C.Tries c j (ExceptT.mk p) g Q E ↔ C.Meets c j p g (Ends Q E) := Iff.rfl

@[simp]
theorem tries_bind {x : ExceptT ε (Program α) ρ} {f : ρ → ExceptT ε (Program α) σ}
    {Q : Standing α → σ → Prop} :
    C.Tries c j (x >>= f) g Q E ↔ C.Tries c j x g (fun g' r => C.Tries c j (f r) g' Q E) E := by
  refine Iff.trans (meets_bind (p := x.run)) ⟨fun h => h.mono ?_, fun h => h.mono ?_⟩
  · rintro g' (e | r) h' <;> exact h'
  · rintro g' (e | r) h' <;> exact h'

@[simp]
theorem tries_lift {p : Program α ρ} :
    C.Tries c j (liftM p : ExceptT ε (Program α) ρ) g Q E ↔ C.Meets c j p g Q :=
  meets_map

theorem Tries.mono {x : ExceptT ε (Program α) ρ} {Q' : Standing α → ρ → Prop}
    {E' : Standing α → ε → Prop} (h : C.Tries c j x g Q E) (hQ : ∀ g' r, Q g' r → Q' g' r)
    (hE : ∀ g' e, E g' e → E' g' e) : C.Tries c j x g Q' E' := by
  refine Meets.mono h ?_
  rintro g' (e | r) h'
  · exact hE _ _ h'
  · exact hQ _ _ h'

end Contract

end ClusterControl
