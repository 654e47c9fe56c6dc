import GraphScript.Player
import GraphScript.Proofs.Bookkeeping
import Mathlib.Data.List.Induction
import Mathlib.Data.Nat.Basic
import Mathlib.Order.Basic

/-!
# KeySchedule — which keys are held in which frame of a play

A play configuration lists key events in any order.  In each frame those of the frame are applied, and a
key stays as it is until the next event for it, through passes and restarts.

- `KeyEvent.Scheduled` — by the list alone, a key is held at a frame: the last event for it, by frame
  and then by place in the list, lets it down;
- `Player.after` — the session after so many frames of a play; `Player.play_eq` says that a play goes
  through these sessions;
- `Player.held_after` — after so many frames just those keys are held that are scheduled;
- `Player.run_keys` — during every pass of a run the keys follow the schedule, and nothing else in the
  list of events matters.
-/

namespace GraphScript

/-! ## The schedule -/

namespace KeyEvent

/-- The event is about the key, and at one of the frames from the first to the `k`-th. -/
def Concerns (key : Key) (k : Nat) (e : KeyEvent) : Prop := e.key = key ∧ 1 ≤ e.frame ∧ e.frame ≤ k

/-- Of the events that concern the key up to frame `k`, none is later: none at a later frame, and none
behind it in the list at the same frame. -/
def IsLast (events : List KeyEvent) (key : Key) (k : Nat) (e : KeyEvent) : Prop :=
  e.Concerns key k ∧ ∃ before after, events = before ++ e :: after ∧
    (∀ other ∈ before, other.Concerns key k → other.frame ≤ e.frame) ∧
    (∀ other ∈ after, other.Concerns key k → other.frame < e.frame)

/-- The key is to be held at frame `k`. -/
def Scheduled (events : List KeyEvent) (key : Key) (k : Nat) : Prop :=
  ∃ e, IsLast events key k e ∧ e.down = true

variable {events : List KeyEvent} {key : Key} {k : Nat} {e e' : KeyEvent}

/-- Before the first frame no key is held. -/
theorem not_scheduled_zero : ¬ Scheduled events key 0 := by
  rintro ⟨e, ⟨⟨-, hfirst, hlast⟩, -⟩, -⟩
  omega

/-- Two places of a list are the same, or one of them is behind the other. -/
theorem IsLast.unique (h : IsLast events key k e) (h' : IsLast events key k e') : e = e' := by
  rcases h with ⟨hconcerns, before, after, hsplit, hbefore, hafter⟩
  rcases h' with ⟨hconcerns', before', after', hsplit', hbefore', hafter'⟩
  rw [hsplit] at hsplit'
  -- One of the two places is before the other, or they are the same.
  rcases List.append_eq_append_iff.1 hsplit' with ⟨between, rfl, hrest⟩ | ⟨between, rfl, hrest⟩
  · -- If `e` is before `e'`, it would be the later one, and also not later than `e'`.
    cases between with
    | nil => exact (List.cons.inj hrest).1
    | cons first between =>
      obtain ⟨rfl, rfl⟩ := List.cons.inj hrest
      have hless := hafter e' (by simp) hconcerns'
      have hle := hbefore' e (by simp) hconcerns
      omega
  · cases between with
    | nil => exact (List.cons.inj hrest).1.symm
    | cons first between =>
      obtain ⟨rfl, rfl⟩ := List.cons.inj hrest
      have hless := hafter' e (by simp) hconcerns
      have hle := hbefore e' (by simp) hconcerns'
      omega

/-- The last event of the frame is the last one of all so far. -/
theorem isLast_of_getLast?
    (h : (events.filter fun e => e.frame = k + 1 ∧ e.key = key).getLast? = some e) :
    IsLast events key (k + 1) e := by
  obtain ⟨earlier, hfilter⟩ := List.getLast?_eq_some_iff.1 h
  obtain ⟨before, rest, rfl, -, hrest⟩ := List.filter_eq_append_iff.1 hfilter
  obtain ⟨gap, after, rfl, -, hkept, hnone⟩ := List.filter_eq_cons_iff.1 hrest
  have hkept : e.frame = k + 1 ∧ e.key = key := by simpa using hkept
  refine ⟨⟨hkept.2, by omega, hkept.1.le⟩, before ++ gap, after, by simp, ?_, ?_⟩
  · exact fun other _ hconcerns => hconcerns.2.2.trans hkept.1.ge
  · intro other hother hconcerns
    have hother := List.filter_eq_nil_iff.1 hnone other hother
    have hframe : other.frame ≠ k + 1 := fun hframe => hother (by simp [hframe, hconcerns.1])
    have hle := hconcerns.2.2
    omega

/-- The frame up to which events are looked at matters only through the events that it lets in. -/
theorem IsLast.congr {l : Nat} (hsame : ∀ other ∈ events, other.Concerns key k ↔ other.Concerns key l)
    (h : IsLast events key k e) : IsLast events key l e := by
  rcases h with ⟨hconcerns, before, after, rfl, hbefore, hafter⟩
  refine ⟨(hsame e (by simp)).1 hconcerns, before, after, rfl, ?_, ?_⟩
  · exact fun other hother hc => hbefore other hother ((hsame other (by simp [hother])).2 hc)
  · exact fun other hother hc => hafter other hother ((hsame other (by simp [hother])).2 hc)

/-- In a frame without events for the key, the last one so far stays the last one. -/
theorem isLast_succ (h : events.filter (fun e => e.frame = k + 1 ∧ e.key = key) = []) :
    IsLast events key (k + 1) e ↔ IsLast events key k e := by
  have hsame : ∀ other ∈ events, other.Concerns key (k + 1) ↔ other.Concerns key k := by
    intro other hother
    have hnot := List.filter_eq_nil_iff.1 h other hother
    refine and_congr_right fun hkey => and_congr_right fun _ => ?_
    have hframe : other.frame ≠ k + 1 := fun hframe => hnot (by simp [hframe, hkey])
    omega
  exact ⟨IsLast.congr hsame, IsLast.congr fun other hother => (hsame other hother).symm⟩

/-- From frame to frame: the last event of the frame decides, if there is one. -/
theorem scheduled_succ : Scheduled events key (k + 1) ↔
    match (events.filter fun e => e.frame = k + 1 ∧ e.key = key).getLast? with
    | some e => e.down = true
    | none => Scheduled events key k := by
  cases hlast : (events.filter fun e => e.frame = k + 1 ∧ e.key = key).getLast? with
  | none =>
    rw [List.getLast?_eq_none_iff] at hlast
    exact exists_congr fun e => and_congr_left fun _ => isLast_succ hlast
  | some e =>
    have hislast := isLast_of_getLast? hlast
    constructor
    · rintro ⟨e', hislast', hdown⟩
      rwa [hislast.unique hislast']
    · exact fun hdown => ⟨e, hislast, hdown⟩

end KeyEvent

/-! ## Keys of the scene -/

namespace Player

/-- Events change nothing of the scene but the keys, and for each key the last event counts. -/
theorem applyKeys_eq (scene : HeadlessScene) (events : List KeyEvent) :
    applyKeys scene events = { scene with
      held := fun key =>
        match (events.filter (·.key = key)).getLast? with
        | some e => e.down
        | none => scene.held key } := by
  induction events using List.reverseRecOn with
  | nil => rfl
  | append_singleton events e ih =>
    have hlast : applyKeys scene (events ++ [e]) = (applyKeys scene events).setKey e.key e.down :=
      List.foldl_append
    rw [hlast, ih, HeadlessScene.setKey]
    congr 1
    funext key
    by_cases hkey : key = e.key
    · simp [hkey]
    · simp [hkey, Ne.symm hkey]

end Player

/-- Removing objects moves no key. -/
theorem HeadlessScene.held_foldl_destroy (handles : List Handle) (scene : HeadlessScene) :
    (handles.foldl SceneHost.destroy scene).held = scene.held := by
  induction handles generalizing scene with
  | nil => rfl
  | cons handle handles ih =>
    refine (ih _).trans ?_
    change (scene.destroy handle).held = scene.held
    unfold destroy
    split <;> rfl

/-- No run of a standard kind touches a key. -/
theorem World.Changes.held {w w' : World HeadlessScene} (h : World.Changes w w') :
    w'.host.held = w.host.held := by
  induction h with
  | refl => rfl
  | tail _ hlast ih =>
    rw [← ih]
    cases hlast with
    | assign => rfl
    | draw => rfl
    | spawn => rfl
    | destroy id handle _ => exact HeadlessScene.held_foldl_destroy [handle] _
    | clear => exact HeadlessScene.held_foldl_destroy _ _

/-- At every moment of a pass over standard kinds the keys are as they were when it began. -/
theorem Pass.Steps.held {p : Plan HeadlessScene} {starts : List NodeId} {s t : Pass HeadlessScene}
    (hcatalogue : p.catalogue = Catalogue.standard) (h : Steps p starts s t) :
    t.world.host.held = s.world.host.held := by
  refine h.world (P := fun w => w.host.held = s.world.host.held) ?_ rfl
  intro kind d hd a ha
  rw [hcatalogue] at hd
  exact (Kind.changes_of_mem (Catalogue.mem_of_standard hd).1 a).held.trans ha

def Kind.awaited? (node : Node) : Option Key := Key.parse? ((node.text? "key").getD "SPACE")

/-- A node that waits for a key leaves outputs just if it knows the key and finds it held. -/
theorem Kind.isSome_onKey {σ : Type} [SceneHost σ] (a : Activation σ) :
    (onKey.run a).outputs.isSome = true ↔
      ∃ key, awaited? a.node = some key ∧ a.world.isKeyDown key = true := by
  cases hkey : awaited? a.node with
  | none =>
    rw [awaited?] at hkey
    simp [onKey, hkey, Activation.finish]
  | some key =>
    rw [awaited?] at hkey
    by_cases hdown : a.world.isKeyDown key = true <;> simp [onKey, hkey, hdown, Activation.finish]

/-- The runs of nodes that wait for keys tell which keys are held in the pass. -/
theorem Plan.isSome_of_onKey {p : Plan HeadlessScene} (hcatalogue : p.catalogue = Catalogue.standard)
    (starts : List NodeId) (world : World HeadlessScene) (memories : Table NodeId Slot) {call : Call}
    (hcall : call ∈ (p.pass starts world memories).calls) (hkind : call.node.kind = "OnKey") :
    call.outputs.isSome = true ↔
      ∃ key, Kind.awaited? call.node = some key ∧ world.isKeyDown key = true := by
  -- The keys are never touched, so each run finds them as they were when the pass began.
  let Tells (s : Pass HeadlessScene) : Prop := s.world.host.held = world.host.held ∧
    ∀ call ∈ s.calls, call.node.kind = "OnKey" → (call.outputs.isSome = true ↔
      ∃ key, Kind.awaited? call.node = some key ∧ world.isKeyDown key = true)
  have hend : Tells (p.pass starts world memories) := by
    refine p.invariant_pass ?_ (fun _ _ _ hs => hs) (fun _ _ hs => hs) ?_ starts ⟨rfl, nofun⟩
    · intro s e he hs
      exact ⟨hs.1, by rw [Pass.calls_record he]; exact hs.2⟩
    · intro s d node cause inputs hd hs
      rw [hcatalogue] at hd
      have hmem := Catalogue.mem_of_standard hd
      refine ⟨?_, ?_⟩
      · rw [Pass.call_world]
        exact (Kind.changes_of_mem hmem.1 _).held.trans hs.1
      · rw [Pass.call_calls, List.forall_mem_cons]
        refine ⟨fun hkind => ?_, hs.2⟩
        -- No other standard kind has this name.
        have hd : d = Kind.onKey :=
          Catalogue.eq_of_kind_eq hmem.1 (by simp [Kind.standard]) (hmem.2.trans hkind)
        subst hd
        have hdown : ∀ key, s.world.isKeyDown key = world.isKeyDown key := congrFun hs.1
        simp only [← hdown]
        exact Kind.isSome_onKey _
  exact hend.2 call hcall hkind

namespace Session

variable {s : Session HeadlessScene} {milliseconds : Float}

/-- The runs of an update are those of its pass, whether a restart follows or not. -/
theorem calls_update (hplaying : s.state = .playing) :
    Event.calls (s.update milliseconds).events = (s.updatePass milliseconds).calls.reverse := by
  cases hasked : (s.updatePass milliseconds).world.host.restartPending with
  | false =>
    rw [update_of_quiet hplaying hasked]
    exact Pass.calls_reverse _
  | true =>
    rw [update_of_restart hplaying hasked, Event.calls, List.filterMap_append]
    exact (List.append_nil _).trans (Pass.calls_reverse _)

/-- Neither an update nor the restart behind it touches a key, and a session that plays goes on. -/
theorem update_keys (hcatalogue : s.executor.plan.catalogue = Catalogue.standard)
    (hplaying : s.state = .playing) (milliseconds : Float) :
    (s.update milliseconds).session.world.host.held = s.world.host.held ∧
      (s.update milliseconds).session.state = .playing := by
  have hpass : (s.updatePass milliseconds).world.host.held = s.world.host.held :=
    (Plan.steps_pass _ _ _ _).held hcatalogue
  cases hasked : (s.updatePass milliseconds).world.host.restartPending with
  | false =>
    rw [update_of_quiet hplaying hasked]
    exact ⟨hpass, hplaying⟩
  | true =>
    rw [update_of_restart hplaying hasked]
    exact ⟨(HeadlessScene.held_foldl_destroy _ _).trans hpass, hplaying⟩

end Session

/-! ## Frames -/

namespace Player

variable (c : PlayConfig) (g : Graph) (supply : IdSupply)

/-- The session with the key events of a frame applied, just before its update. -/
def keyed (n : Nat) (s : Session HeadlessScene) : Session HeadlessScene :=
  { s with world := { s.world with host := applyKeys s.world.host (c.keysAt n) } }

def after : Nat → Session HeadlessScene
  | 0 => (Session.fresh g c.executor supply).play.session
  | k + 1 => (frame c (k + 1) (after k)).session

/-- Frames from any one on lead through the sessions of the play, and tell of them in order. -/
theorem frames_after (count k : Nat) (events : List Event) :
    frames c count (k + 1) (after c g supply k) events =
      (after c g supply (k + count),
        ((List.range count).flatMap fun i =>
          (frame c (k + i + 1) (after c g supply (k + i))).events).reverse ++ events) := by
  induction count generalizing k events with
  | zero => rfl
  | succ count ih =>
    rw [frames]
    refine (ih (k + 1) _).trans ?_
    have hshift : ∀ i, k + 1 + i = k + (i + 1) := fun i => by omega
    simp only [hshift, List.range_succ_eq_map, List.flatMap_cons, List.flatMap_map,
      List.reverse_append, List.append_assoc, List.reverseAux_eq, Nat.add_zero]

/-- A play goes through these sessions, and tells frame by frame what happens. -/
theorem play_eq :
    play c g supply = (after c g supply c.frames,
      (Executor.ofGraph g (Catalogue.standard : Catalogue HeadlessScene) c.executor).2.map .noted ++
        (Session.fresh g c.executor supply).play.events ++
        (List.range c.frames).flatMap fun k => (frame c (k + 1) (after c g supply k)).events) := by
  have hframes := frames_after c g supply c.frames 0 []
  simp only [Nat.zero_add, List.append_nil] at hframes
  change ((frames c c.frames 1 (after c g supply 0) []).1, _ ++ _ ++
    (frames c c.frames 1 (after c g supply 0) []).2.reverse) = _
  rw [hframes, List.reverse_reverse]
  rfl

/-! ## Keys in a frame -/

/-- Of the events of a frame, those for one key are in the order of the configuration. -/
theorem filter_keysAt (n : Nat) (key : Key) : (c.keysAt n).filter (·.key = key) =
    c.keys.filter fun e => e.frame = n ∧ e.key = key := by
  rw [PlayConfig.keysAt, List.filter_filter]
  refine List.filter_congr fun e _ => ?_
  rw [Bool.and_comm, Bool.decide_and]

/-- The last event of the frame decides about its key, and without one the key stays as it was. -/
theorem held_keyed (n : Nat) (s : Session HeadlessScene) (key : Key) :
    (keyed c n s).world.isKeyDown key =
      match (c.keys.filter fun e => e.frame = n ∧ e.key = key).getLast? with
      | some e => e.down
      | none => s.world.isKeyDown key := by
  rw [← filter_keysAt]
  exact congrFun (congrArg HeadlessScene.held (applyKeys_eq s.world.host (c.keysAt n))) key

/-- The keys of a frame are the scheduled ones, if those of the frame before were. -/
theorem held_keyed_iff {k : Nat} {s : Session HeadlessScene}
    (h : ∀ key, s.world.isKeyDown key = true ↔ KeyEvent.Scheduled c.keys key k) (key : Key) :
    (keyed c (k + 1) s).world.isKeyDown key = true ↔ KeyEvent.Scheduled c.keys key (k + 1) := by
  rw [held_keyed, KeyEvent.scheduled_succ]
  split
  · rfl
  · exact h key

/-- After so many frames just the scheduled keys are held, whatever restarts there were. -/
theorem held_after (k : Nat) :
    (after c g supply k).state = .playing ∧
      (after c g supply k).executor.plan.catalogue = Catalogue.standard ∧
      ∀ key, (after c g supply k).world.isKeyDown key = true ↔ KeyEvent.Scheduled c.keys key k := by
  induction k with
  | zero => exact ⟨rfl, rfl, fun key => iff_of_false Bool.false_ne_true KeyEvent.not_scheduled_zero⟩
  | succ k ih =>
    rcases ih with ⟨hplaying, hcatalogue, hheld⟩
    -- Keys are applied, the update leaves them as they are, and the plan stays.
    have hkeyed : (keyed c (k + 1) (after c g supply k)).executor.plan.catalogue =
      Catalogue.standard := hcatalogue
    rcases Session.update_keys hkeyed hplaying c.frameTime with ⟨hsame, hgoes⟩
    have hplan := (Session.apply_executor (keyed c (k + 1) (after c g supply k))
      (.update c.frameTime)).1
    refine ⟨hgoes, (congrArg Plan.catalogue hplan).trans hkeyed, fun key => ?_⟩
    have hdown : (after c g supply (k + 1)).world.isKeyDown key =
        (keyed c (k + 1) (after c g supply k)).world.isKeyDown key := congrFun hsame key
    rw [hdown]
    exact held_keyed_iff c hheld key

/-! ## Other lists of events -/

/-- Events in which the frames of a play apply the same keys make the same play. -/
theorem play_keys (keys : List KeyEvent)
    (h : ∀ n, 1 ≤ n → n ≤ c.frames → ∀ scene,
      applyKeys scene (PlayConfig.keysAt { c with keys } n) = applyKeys scene (c.keysAt n)) :
    play { c with keys } g supply = play c g supply := by
  have hframes : ∀ count n s events, 1 ≤ n → n + count ≤ c.frames + 1 →
      frames { c with keys } count n s events = frames c count n s events := by
    intro count
    induction count with
    | zero => exact fun _ _ _ _ _ => rfl
    | succ count ih =>
      intro n s events hfirst hlast
      -- A frame reads of the configuration only the keys of that frame and its length.
      have hframe : frame { c with keys } n s = frame c n s := by
        rw [frame, frame, h n hfirst (by omega)]
      rw [frames, frames, hframe]
      exact ih _ _ _ (by omega) (by omega)
  simp only [play, hframes c.frames 1 _ _ le_rfl (Nat.add_comm _ _).le]

/-- Only the order of events for the same key in the same frame counts. -/
theorem play_reordered (keys : List KeyEvent)
    (h : ∀ n key, (keys.filter fun e => e.frame = n ∧ e.key = key) =
      c.keys.filter fun e => e.frame = n ∧ e.key = key) :
    play { c with keys } g supply = play c g supply := by
  refine play_keys c g supply keys fun n _ _ scene => ?_
  rw [applyKeys_eq, applyKeys_eq]
  simp only [filter_keysAt, h]

/-- Events at frame zero, or behind the last frame, do nothing. -/
theorem play_within :
    play { c with keys := c.keys.filter fun e => 1 ≤ e.frame ∧ e.frame ≤ c.frames } g supply =
      play c g supply := by
  refine play_keys c g supply _ fun n hfirst hlast scene => ?_
  have hsame : (c.keys.filter fun e => 1 ≤ e.frame ∧ e.frame ≤ c.frames).filter (·.frame = n) =
      c.keys.filter (·.frame = n) := by
    rw [List.filter_filter]
    refine List.filter_congr fun e _ => ?_
    rw [← Bool.decide_and]
    exact decide_eq_decide.2 ⟨And.left, fun hframe => ⟨hframe, by omega, by omega⟩⟩
  exact congrArg (applyKeys scene) hsame

/-! ## The result -/

/-- A play of the graph follows the schedule.

- It goes from session to session, and tells in order what happens in each frame.
- At every moment of the pass of a frame just the scheduled keys are held.
- A node that waits for a key leaves outputs just if the key is scheduled. -/
structure Follows (c : PlayConfig) (g : Graph) (supply : IdSupply) : Prop where
  session : (play c g supply).1 = after c g supply c.frames
  events : (play c g supply).2 =
    (Executor.ofGraph g (Catalogue.standard : Catalogue HeadlessScene) c.executor).2.map .noted ++
      (Session.fresh g c.executor supply).play.events ++
      (List.range c.frames).flatMap fun k => (frame c (k + 1) (after c g supply k)).events
  held : ∀ k < c.frames,
    let s := keyed c (k + 1) (after c g supply k)
    ∀ t, Pass.Steps s.executor.plan s.executor.startNodes
        { world := s.advanced c.frameTime, memories := s.executor.memories } t →
      ∀ key, t.world.isKeyDown key = true ↔ KeyEvent.Scheduled c.keys key (k + 1)
  waits : ∀ k < c.frames, ∀ call ∈ Event.calls (frame c (k + 1) (after c g supply k)).events,
    call.node.kind = "OnKey" → (call.outputs.isSome = true ↔
      ∃ key, Kind.awaited? call.node = some key ∧ KeyEvent.Scheduled c.keys key (k + 1))

/-- Every play follows its schedule. -/
theorem follows : Follows c g supply := by
  have hplay := play_eq c g supply
  constructor
  case session => rw [hplay]
  case events => rw [hplay]
  case held =>
    intro k _ s t hsteps key
    rcases held_after c g supply k with ⟨-, hcatalogue, hheld⟩
    have hcatalogue : s.executor.plan.catalogue = Catalogue.standard := hcatalogue
    rw [World.isKeyDown, ← held_keyed_iff c hheld]
    exact iff_of_eq (congrArg (· = true) (congrFun (hsteps.held hcatalogue) key))
  case waits =>
    intro k _ call hcall hkind
    rcases held_after c g supply k with ⟨hplaying, hcatalogue, hheld⟩
    let s := keyed c (k + 1) (after c g supply k)
    have hcatalogue : s.executor.plan.catalogue = Catalogue.standard := hcatalogue
    have hplaying : s.state = .playing := hplaying
    change call ∈ Event.calls (s.update c.frameTime).events at hcall
    rw [Session.calls_update hplaying, List.mem_reverse] at hcall
    simp only [← held_keyed_iff c hheld]
    exact Plan.isSome_of_onKey hcatalogue s.executor.startNodes (s.advanced c.frameTime)
      s.executor.memories hcall hkind

/-- The file of a graph that resets the game at its start. -/
def resettingText : String :=
  "\x7b\"nodes\":[\x7b\"id\":\"start\",\"type\":\"OnStart\"\x7d,\x7b\"id\":\"reset\",\"type\":\"ResetGame\"\x7d]," ++
    "\"edges\":[\x7b\"source\":\"start\",\"sourceHandle\":\"exec\"," ++
    "\"target\":\"reset\",\"targetHandle\":\"exec\"\x7d]\x7d"

/-- The space bar goes down in the first frame, and would go up only after the second one. -/
def pressed : PlayConfig where
  graph := "game.json"
  frames := 2
  keys := [⟨3, .space, false⟩, ⟨1, .space, true⟩, ⟨0, .up, true⟩]

end Player

end GraphScript
