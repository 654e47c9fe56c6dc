import GraphScript.Proofs.ConnectionEvents
import GraphScript.Proofs.Pushes

/-!
# Pulls — how often the source of a data connection runs

Whenever a connection is followed, the data connections into its target are resolved, each with what a
run of its source left.  The events of a pass tell of the runs and of the connections apart from each
other; here the two are compared.

- `Pass.Account` — what a pass tells of one source: what its pulls left, what connections from it were
  resolved with, and what is kept of it;
- `Pass.walkInvariant_account` — only resolving connections from the source changes its account;
- `PullRules` and `Executor.pullRules_execute` — a source that runs anew does so once for each
  connection that is resolved; of one that is kept the first run counts for the whole pass, and no
  longer.
-/

namespace GraphScript

variable {σ : Type}

namespace Event

def pullOutputs (id : NodeId) (events : List Event) : List (Option Outputs) :=
  events.filterMap fun
    | .called call => if call.cause = .pulled ∧ call.node.id = id then some call.outputs else none
    | _ => none

/-- What the connections from a node were resolved with. -/
def resolvedOutputs (id : NodeId) (events : List Event) : List (Option Outputs) :=
  events.filterMap fun
    | .resolved conn outputs => if conn.fromNode = id then some outputs else none
    | _ => none

def resolvedConnections (events : List Event) : List Connection :=
  events.filterMap fun | .resolved conn _ => some conn | _ => none

def followedConnections (events : List Event) : List Connection :=
  events.filterMap fun | .followed conn _ => some conn | _ => none

end Event

/-- The connections that deliver data into a node: they leave data outputs of nodes of known kinds. -/
def Graph.dataInto (g : Graph) (c : Catalogue σ) (id : NodeId) : List Connection :=
  (g.connectionsTo id).filter fun conn =>
    (g.definition? c conn.fromNode).any fun d => !d.isControlOutput conn.fromPort

/-- What is known of pulls when a pass is over.

- All connections into the targets of followed connections were resolved, in order, and no others.
- Under the policy to run sources anew, and wherever a source has side effects, each connection from it
  that was resolved had a pull of its own, and was resolved with what that pull left.
- Otherwise the source was pulled for the first such connection only, and all were resolved with what
  this pull left, be that outputs or nothing. -/
structure PullRules (g : Graph) (c : Catalogue σ) (policy : PullPolicy) (events : List Event) :
    Prop where
  resolved : Event.resolvedConnections events =
    (Event.followedConnections events).flatMap fun conn => g.dataInto c conn.toNode
  anew : ∀ id d, g.definition? c id = some d → policy = .reinvoke ∨ d.sideEffects = true →
    Event.pullOutputs id events = Event.resolvedOutputs id events
  kept : ∀ id d, g.definition? c id = some d → policy = .memoizePerPass → d.sideEffects = false →
    Event.pullOutputs id events = (Event.resolvedOutputs id events).take 1 ∧
      ∀ outputs ∈ Event.resolvedOutputs id events, ∀ outputs' ∈ Event.resolvedOutputs id events,
        outputs = outputs'

namespace Pass

variable {p : Plan σ} {s : Pass σ} {id : NodeId} {source : Node} {d : Definition σ}
  {conn : Connection}

/-! ## The account of a source -/

/-- What a pass tells of one source. -/
structure Account where
  pulls : List (Option Outputs)
  resolved : List (Option Outputs)
  kept : Option (Option Outputs)

/-- The account of a node so far, last entries first. -/
def account (s : Pass σ) (id : NodeId) : Account :=
  ⟨Event.pullOutputs id s.events, Event.resolvedOutputs id s.events, s.pulled.get? id⟩

theorem resolvedOutputs_call (s : Pass σ) (d : Definition σ) (node : Node) (cause : Cause)
    (inputs : Inputs) : Event.resolvedOutputs id (s.call d node cause inputs).2.events =
      Event.resolvedOutputs id s.events := by
  rw [call_events, ← List.map_reverse]
  simp [Event.resolvedOutputs, List.filterMap_map]

/-- A run is on the list of pulls just if it is a pull of the node. -/
theorem pullOutputs_call (s : Pass σ) (d : Definition σ) (node : Node) (cause : Cause)
    (inputs : Inputs) : Event.pullOutputs id (s.call d node cause inputs).2.events =
      (if cause = .pulled ∧ node.id = id then [(s.call d node cause inputs).1] else []) ++
        Event.pullOutputs id s.events := by
  have hnotes : Event.pullOutputs id
      (((s.outcome d node inputs).notes.map Event.noted).reverse ++ s.events) =
        Event.pullOutputs id s.events := by
    rw [← List.map_reverse]
    simp [Event.pullOutputs, List.filterMap_map]
  rw [call_events, ← hnotes]
  by_cases h : cause = .pulled ∧ node.id = id
  · simp [Event.pullOutputs, h]
    rfl
  · simp [Event.pullOutputs, h]

/-- A run that is no pull of the node is not on its account. -/
theorem account_call (s : Pass σ) (d : Definition σ) {node : Node} {cause : Cause}
    (inputs : Inputs) (h : ¬ (cause = .pulled ∧ node.id = id)) :
    (s.call d node cause inputs).2.account id = s.account id := by
  rw [account, pullOutputs_call, resolvedOutputs_call, call_pulled, if_neg h]
  rfl

/-- A pull of a source is one more entry of its account. -/
theorem account_pulled (s : Pass σ) (d : Definition σ) (source : Node) :
    (s.call d source .pulled {}).2.account source.id =
      { s.account source.id with
        pulls := (s.call d source .pulled {}).1 :: (s.account source.id).pulls } := by
  rw [account, pullOutputs_call, resolvedOutputs_call, call_pulled, if_pos ⟨rfl, rfl⟩]
  rfl

theorem account_resolved (s : Pass σ) (hfrom : conn.fromNode = id) (outputs : Option Outputs) :
    (s.record (.resolved conn outputs)).account id =
      { s.account id with resolved := outputs :: (s.account id).resolved } := by
  simp [account, record, Event.pullOutputs, Event.resolvedOutputs, hfrom]

theorem account_resolved_other (s : Pass σ) (hfrom : conn.fromNode ≠ id)
    (outputs : Option Outputs) : (s.record (.resolved conn outputs)).account id = s.account id := by
  simp [account, record, Event.pullOutputs, Event.resolvedOutputs, hfrom]

/-- Pulling another node is not on the account. -/
theorem account_pull_other (p : Plan σ) (d : Definition σ) (s : Pass σ) (h : source.id ≠ id) :
    (pull p d source s).2.account id = s.account id := by
  have hcall : (s.call d source .pulled {}).2.account id = s.account id :=
    account_call s d {} fun hpulled => h hpulled.2
  refine pull_invariant (I := fun t => t.account id = s.account id) rfl hcall ?_
  intro t outputs ht
  rw [← ht]
  simp [account, Table.get?_insert, h]

/-- Only resolving connections from the node changes its account. -/
theorem walkInvariant_account (hkeyed : p.wiring.Keyed) {P : Account → Prop}
    (hresolved : ∀ s conn source d, source.id = id → conn.fromNode = id →
      p.wiring.node? id = some source → p.catalogue.get? source.kind = some d → P (s.account id) →
      P (((pull p d source s).2.record (.resolved conn (pull p d source s).1)).account id)) :
    WalkInvariant p (fun s => P (s.account id)) := by
  constructor
  case noted => exact fun s n _ hs => hs
  case followed => exact fun s conn depth _ _ _ hs => hs
  case entered =>
    intro s node d depth inputs _ _ _ hs
    have hcall : (s.enter d node depth inputs).2.account id = s.account id :=
      account_call { s with executed := node.id :: s.executed } d inputs fun h => by cases h.1
    rw [hcall]
    exact hs
  case resolved =>
    intro s target conn source d _ hsource hd _ hs
    have hid : source.id = conn.fromNode := hkeyed _ _ hsource
    by_cases hfrom : conn.fromNode = id
    · exact hresolved s conn source d (hid.trans hfrom) hfrom (hfrom ▸ hsource) hd hs
    · rw [account_resolved_other _ hfrom, account_pull_other p d s (hid ▸ hfrom)]
      exact hs

/-! ## Sources that run anew -/

/-- Each connection had a pull of its own. -/
def Account.Balanced (a : Account) : Prop := a.pulls = a.resolved

/-- Running a source anew for a connection keeps its account balanced. -/
theorem Account.Balanced.resolve {s : Pass σ} (h : (s.account source.id).Balanced)
    (hanew : ¬ (p.config.pullPolicy = .memoizePerPass ∧ ¬ d.sideEffects = true))
    (hfrom : conn.fromNode = source.id) :
    (((pull p d source s).2.record (.resolved conn (pull p d source s).1)).account
      source.id).Balanced := by
  have hpull : pull p d source s = s.call d source .pulled {} := if_neg hanew
  rw [hpull, account_resolved _ hfrom, account_pulled]
  exact congrArg (_ :: ·) h

/-! ## Sources that are kept -/

/-- Nothing is kept as long as nothing was resolved; afterwards, what the one pull left is kept, and
all connections were resolved with it. -/
def Account.Settled (a : Account) : Prop :=
  match a.kept with
  | none => a.pulls = [] ∧ a.resolved = []
  | some outputs => a.pulls = [outputs] ∧ ∃ n, a.resolved = List.replicate (n + 1) outputs

/-- Pulling a source that is kept leaves its account settled. -/
theorem Account.Settled.resolve {s : Pass σ} (h : (s.account source.id).Settled)
    (hkeep : p.config.pullPolicy = .memoizePerPass ∧ ¬ d.sideEffects = true)
    (hfrom : conn.fromNode = source.id) :
    (((pull p d source s).2.record (.resolved conn (pull p d source s).1)).account
      source.id).Settled := by
  rw [account_resolved _ hfrom]
  unfold pull
  rw [if_pos hkeep]
  cases hkept : s.pulled.get? source.id with
  | some outputs =>
    have hkept' : (s.account source.id).kept = some outputs := hkept
    simp only [Settled, hkept'] at h ⊢
    rcases h with ⟨hpulls, n, hresolved⟩
    exact ⟨hpulls, n + 1, by rw [hresolved]; rfl⟩
  | none =>
    have hkept' : (s.account source.id).kept = none := hkept
    simp only [Settled, hkept'] at h
    rcases h with ⟨hpulls, hresolved⟩
    let called := s.call d source .pulled {}
    -- The first run of the source is kept together with its result.
    have haccount : ({ called.2 with pulled := called.2.pulled.insert source.id called.1 } :
        Pass σ).account source.id = ⟨[called.1], [], some called.1⟩ := by
      have hcalled := account_pulled s d source
      rw [hpulls] at hcalled
      rw [account, Account.mk.injEq]
      refine ⟨congrArg Account.pulls hcalled, ?_, ?_⟩
      · exact (congrArg Account.resolved hcalled).trans hresolved
      · simp [Table.get?_insert]
    have hsettled : Settled ⟨[called.1], [called.1], some called.1⟩ := ⟨rfl, 0, rfl⟩
    exact haccount ▸ hsettled

/-- In a settled account there is at most one pull, and all connections were resolved with what it left.
-/
theorem Account.Settled.first_counts {a : Account} (h : a.Settled) :
    a.pulls.reverse = a.resolved.reverse.take 1 ∧
      ∀ outputs ∈ a.resolved.reverse, ∀ outputs' ∈ a.resolved.reverse, outputs = outputs' := by
  rcases a with ⟨pulls, resolved, kept⟩
  cases kept with
  | none =>
    rcases h with ⟨rfl, rfl⟩
    simp
  | some outputs =>
    rcases h with ⟨rfl, n, rfl⟩
    simp

/-! ## What is resolved -/

def delivers (p : Plan σ) (conn : Connection) : Bool :=
  ((p.wiring.node? conn.fromNode).bind fun n => p.catalogue.get? n.kind).any fun d =>
    !d.isControlOutput conn.fromPort

structure Links where
  followed : List Connection
  resolved : List Connection

def links (s : Pass σ) : Links :=
  ⟨(Event.followedConnections s.events).reverse, (Event.resolvedConnections s.events).reverse⟩

theorem links_call (s : Pass σ) (d : Definition σ) (node : Node) (cause : Cause) (inputs : Inputs) :
    (s.call d node cause inputs).2.links = s.links := by
  rw [links, call_events, ← List.map_reverse]
  simp [links, Event.followedConnections, Event.resolvedConnections, List.filterMap_map]

/-- Running a source neither follows nor resolves a connection. -/
theorem links_pull (p : Plan σ) (d : Definition σ) (source : Node) (s : Pass σ) :
    (pull p d source s).2.links = s.links :=
  pull_invariant (I := fun t => t.links = s.links) rfl (links_call s d source .pulled {})
    fun _ _ ht => ht

theorem links_resolved (s : Pass σ) (conn : Connection) (outputs : Option Outputs) :
    (s.record (.resolved conn outputs)).links =
      { s.links with resolved := s.links.resolved ++ [conn] } :=
  Links.mk.injEq .. ▸ ⟨rfl, List.reverse_cons⟩

theorem links_followed (s : Pass σ) (conn : Connection) (depth : Nat) :
    (s.record (.followed conn depth)).links =
      { s.links with followed := s.links.followed ++ [conn] } :=
  Links.mk.injEq .. ▸ ⟨List.reverse_cons, rfl⟩

/-- A connection is resolved just if it delivers data. -/
theorem links_deliver (p : Plan σ) (state : Inputs × Pass σ) (conn : Connection) :
    (deliver p state conn).2.links =
      { state.2.links with resolved := state.2.links.resolved ++ [conn].filter (delivers p) } := by
  rcases state with ⟨inputs, s⟩
  cases hsource : p.wiring.node? conn.fromNode with
  | none => simp [deliver, delivers, hsource]
  | some source =>
    cases hd : p.catalogue.get? source.kind with
    | none => simp [deliver, delivers, hsource, hd]
    | some d =>
      cases hport : d.isControlOutput conn.fromPort with
      | true => simp [deliver, delivers, hsource, hd, hport]
      | false =>
        have hresolved : ((pull p d source s).2.record
            (.resolved conn (pull p d source s).1)).links =
              { s.links with resolved := s.links.resolved ++ [conn] } := by
          rw [links_resolved, links_pull]
        simp only [deliver, delivers, hsource, hd, hport, Option.bind_some, Option.any_some,
          Bool.not_false, Bool.false_eq_true, if_false, List.filter_cons_of_pos, List.filter_nil]
        split <;> exact hresolved

/-- Assembling inputs resolves all connections that deliver data. -/
theorem links_assemble (p : Plan σ) (target : Node) (s : Pass σ) :
    (assemble p target s).2.links = { s.links with
      resolved := s.links.resolved ++ (p.wiring.connectionsTo target.id).filter (delivers p) } := by
  have hfold : ∀ (conns : List Connection) (state : Inputs × Pass σ),
      (conns.foldl (deliver p) state).2.links = { state.2.links with
        resolved := state.2.links.resolved ++ conns.filter (delivers p) } := by
    intro conns
    induction conns with
    | nil => intro state; simp
    | cons conn conns ih =>
      intro state
      rw [List.foldl_cons, ih, links_deliver]
      refine congrArg (Links.mk _) ?_
      rw [List.append_assoc, ← List.filter_append]
      rfl
  exact hfold _ ({}, s)

/-- All connections into the targets of followed connections were resolved, and no others. -/
def Resolves (p : Plan σ) (s : Pass σ) : Prop :=
  s.links.resolved = s.links.followed.flatMap fun conn =>
    (p.wiring.connectionsTo conn.toNode).filter (delivers p)

/-- Every arrival resolves the connections into its target, and nothing else does. -/
theorem arrivalInvariant_resolves (hkeyed : p.wiring.Keyed) : ArrivalInvariant p (Resolves p) := by
  constructor
  case noted => exact fun s n _ hs => hs
  case entered =>
    intro s node d depth inputs _ _ _ hs
    have hlinks : (s.enter d node depth inputs).2.links = s.links :=
      links_call { s with executed := node.id :: s.executed } d node (.pushed depth) inputs
    rw [Resolves, hlinks]
    exact hs
  case arrived =>
    intro s conn depth target _ htarget _ hs
    rw [Resolves, links_assemble, links_followed, hkeyed _ _ htarget, List.flatMap_append,
      ← show s.links.resolved = _ from hs]
    simp

/-! ## Finished passes -/

variable {g : Graph} {c : Catalogue σ} {config : ExecutorConfig}

/-- The plan of a graph delivers what the graph delivers. -/
theorem delivers_plan (g : Graph) (c : Catalogue σ) (config : ExecutorConfig) (id : NodeId) :
    ((Wiring.ofGraph g).connectionsTo id).filter (delivers (g.plan c config)) = g.dataInto c id := by
  rw [Wiring.connectionsTo_ofGraph, Graph.dataInto]
  refine List.filter_congr ?_
  intro conn _
  rw [delivers, Wiring.node?_ofGraph]
  rfl

theorem resolved_passEnd (g : Graph) (c : Catalogue σ) (config : ExecutorConfig) (world : World σ)
    (memories : Table NodeId Slot) :
    (Executor.passEnd g c config world memories).links.resolved =
      (Executor.passEnd g c config world memories).links.followed.flatMap fun conn =>
        g.dataInto c conn.toNode := by
  have hkeyed : (g.plan c config).wiring.Keyed := Wiring.keyed_ofGraph g
  have hresolves : Resolves (g.plan c config) (Executor.passEnd g c config world memories) :=
    Plan.invariant_of_arrivals hkeyed (arrivalInvariant_resolves hkeyed) _ rfl
  simpa only [Resolves, delivers_plan] using hresolves

/-- A node has one definition, in the graph and in its plan. -/
theorem definition_unique {d' : Definition σ} (hd : g.definition? c id = some d)
    (hsource : (g.plan c config).wiring.node? id = some source)
    (hd' : (g.plan c config).catalogue.get? source.kind = some d') : d' = d := by
  rw [Wiring.node?_ofGraph] at hsource
  rw [Graph.definition?, hsource] at hd
  exact Option.some.inj (hd'.symm.trans hd)

/-- At the end of a pass the account of a source that is run anew is balanced. -/
theorem balanced_passEnd (hd : g.definition? c id = some d)
    (hanew : ¬ (config.pullPolicy = .memoizePerPass ∧ ¬ d.sideEffects = true)) (world : World σ)
    (memories : Table NodeId Slot) :
    ((Executor.passEnd g c config world memories).account id).Balanced := by
  have hkeyed : (g.plan c config).wiring.Keyed := Wiring.keyed_ofGraph g
  refine Plan.invariant_of_walk hkeyed
    (walkInvariant_account (P := Account.Balanced) hkeyed ?_) _ rfl
  rintro s conn source d' rfl hfrom hsource hd' hs
  obtain rfl : d' = d := definition_unique hd hsource hd'
  exact hs.resolve hanew hfrom

/-- At the end of a pass the account of a source that is kept is settled. -/
theorem settled_passEnd (hd : g.definition? c id = some d)
    (hkeep : config.pullPolicy = .memoizePerPass ∧ ¬ d.sideEffects = true) (world : World σ)
    (memories : Table NodeId Slot) :
    ((Executor.passEnd g c config world memories).account id).Settled := by
  have hkeyed : (g.plan c config).wiring.Keyed := Wiring.keyed_ofGraph g
  refine Plan.invariant_of_walk hkeyed
    (walkInvariant_account (P := Account.Settled) hkeyed ?_) _ ⟨rfl, rfl⟩
  rintro s conn source d' rfl hfrom hsource hd' hs
  obtain rfl : d' = d := definition_unique hd hsource hd'
  exact hs.resolve hkeep hfrom

end Pass

/-- In every pass over every graph, whatever came before, pulls keep the rules. -/
theorem Executor.pullRules_execute (g : Graph) (c : Catalogue σ) (config : ExecutorConfig)
    (turns : List (Turn σ)) (world : World σ) :
    PullRules g c config.pullPolicy
      (((ofGraph g c config).1.after turns).execute world).2.2 := by
  rw [events_after]
  generalize ((ofGraph g c config).1.after turns).memories = memories
  constructor
  case resolved =>
    rw [Event.resolvedConnections, List.filterMap_reverse, Event.followedConnections,
      List.filterMap_reverse]
    exact Pass.resolved_passEnd g c config world memories
  case anew =>
    intro id d hd hanew
    have hnot : ¬ (config.pullPolicy = .memoizePerPass ∧ ¬ d.sideEffects = true) := by
      rintro ⟨hpolicy, hpure⟩
      rcases hanew with hreinvoke | heffects
      · cases hreinvoke.symm.trans hpolicy
      · exact hpure heffects
    rw [Event.pullOutputs, List.filterMap_reverse, Event.resolvedOutputs, List.filterMap_reverse]
    exact congrArg List.reverse (Pass.balanced_passEnd hd hnot world memories)
  case kept =>
    intro id d hd hpolicy hpure
    have hkeep : config.pullPolicy = .memoizePerPass ∧ ¬ d.sideEffects = true :=
      ⟨hpolicy, by simp [hpure]⟩
    rw [Event.pullOutputs, List.filterMap_reverse, Event.resolvedOutputs, List.filterMap_reverse]
    exact (Pass.settled_passEnd hd hkeep world memories).first_counts

end GraphScript
