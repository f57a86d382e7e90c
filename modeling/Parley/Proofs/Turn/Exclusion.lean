import Mathlib.Data.List.InsertIdx
import Mathlib.Data.List.Nodup
import Parley.Proofs.Refusal
import Parley.Proofs.Turn.Pairing
set_option autoImplicit false

/-! # One turn at a time

The turns of an agent go on side by side. A turn is entered when it is called for, waits until its
model is known, and then for one reply after the other; whatever it waits for, other turns can be
called for, go on and end in between, and an error can be raised where it waits (`Event`). How a
turn goes on is told by the definitions of a turn alone: `begin` enters it and leads to its first
model call (`begin_eq`), and `resume` leads from there on.

However the steps are mixed, the conversations entered in the state are those of the turns in
progress (`Exclusive`). Every step keeps this, because it either leaves a turn entered and in
progress or takes it out of both lists (`Leg`). -/

namespace Parley.Turn

open Provider

variable {σ : Type}

/-! ## The two parts of a beginning -/

/-- Enter a turn, unless its conversation has one in progress. -/
def enter (id : String) (s : Agent.State σ) : Except Fault (Agent.State σ) :=
  if s.active.contains id then .error (.turnInProgress id)
  else .ok { s with active := id :: s.active }

/-- Go on from the entry of a turn to its first model call. -/
def approach (agent : Agent σ) (id : String) (messages : List Message) (now : Moment)
    (s : Agent.State σ) : Except Fault Progress × Agent.State σ :=
  let (prepared, s) := prepare agent id messages now s
  settle id (prepared.map (Running.next agent.settings.maxToolRounds), s)

theorem begin_eq (agent : Agent σ) (id : String) (messages : List Message) (now : Moment)
    (s : Agent.State σ) :
    begin agent id messages now s
      = match enter id s with
        | .error fault => (.error fault, s)
        | .ok entered => approach agent id messages now entered := by
  unfold begin enter
  split_ifs
  · rfl
  · rfl

/-! ## Turns side by side -/

/-- A turn in progress: it waits for what is known about its model, or for a reply. -/
inductive Flight
  | opening (id : String) (messages : List Message) (now : Moment)
  | calling (turn : Running)

/-- The conversation of a turn in progress. -/
def Flight.id : Flight → String
  | .opening id _ _ => id
  | .calling turn => turn.conversation

/-- The state of an agent and the turns in progress. -/
structure Schedule (σ : Type) where
  state : Agent.State σ
  flights : List Flight

/-- What can happen next. All but the first and the last concern the turn at some place. -/
inductive Event (σ : Type)
  | call (id : String) (messages : List Message) (now : Moment)
  | approach (place : Nat)
  | reply (place : Nat) (reply : Except String Reply)
  /-- An error is raised where the turn waits. -/
  | interrupt (place : Nat) (fault : Fault)
  /-- Something else changes, be it by a tool that is at work. -/
  | change (directory : Model.Directory) (conversations : Ordered String Conversation)
      (world : Work.World σ)

/-- What comes of an event. -/
inductive Answer
  | refused (id : String) (fault : Fault)
  | entered (id : String)
  | calling (id : String)
  | ended (id : String) (result : Except Fault Outcome)
  | nothing
deriving DecidableEq

namespace Schedule

/-- The conversations of the turns in progress. -/
def ids (s : Schedule σ) : List String :=
  s.flights.map Flight.id

/-- Take note of how far the turn at some place has come. -/
def goOn (place : Nat) (id : String) (result : Except Fault Progress × Agent.State σ)
    (s : Schedule σ) : Answer × Schedule σ :=
  match result with
  | (.ok (.calling turn), state) => (.calling id, ⟨state, s.flights.set place (.calling turn)⟩)
  | (.ok (.finished outcome), state) =>
      (.ended id (.ok outcome), ⟨state, s.flights.eraseIdx place⟩)
  | (.error fault, state) => (.ended id (.error fault), ⟨state, s.flights.eraseIdx place⟩)

/-- What an event does. -/
def step (agent : Agent σ) : Event σ → Schedule σ → Answer × Schedule σ
  | .call id messages now, s =>
      match enter id s.state with
      | .error fault => (.refused id fault, s)
      | .ok state => (.entered id, ⟨state, .opening id messages now :: s.flights⟩)
  | .approach place, s =>
      match s.flights[place]? with
      | some (.opening id messages now) =>
          s.goOn place id (Turn.approach agent id messages now s.state)
      | _ => (.nothing, s)
  | .reply place reply, s =>
      match s.flights[place]? with
      | some (.calling turn) => s.goOn place turn.conversation (resume agent turn reply s.state)
      | _ => (.nothing, s)
  | .interrupt place fault, s =>
      match s.flights[place]? with
      | some flight => s.goOn place flight.id (settle flight.id (.error fault, s.state))
      | none => (.nothing, s)
  | .change directory conversations world, s =>
      (.nothing, { s with state := { s.state with directory, conversations, world } })

/-- What some events do, one after the other. -/
def run (agent : Agent σ) : List (Event σ) → Schedule σ → List Answer × Schedule σ
  | [], s => ([], s)
  | event :: rest, s =>
      let (answer, s) := step agent event s
      let (answers, s) := run agent rest s
      (answer :: answers, s)

end Schedule

/-! ## What a turn does until it waits again -/

/-- A part of a turn, for which those entered stay entered, and which comes to a value with some
    property or to a fault that is no refusal. -/
structure Part {α : Type} (property : α → Prop) (entered : List String)
    (result : Except Fault α × Agent.State σ) : Prop where
  active : result.2.active = entered
  value : ∀ a, result.1 = .ok a → property a
  unrefused : Unrefused result.1

theorem Part.ok {α : Type} {property : α → Prop} {entered : List String} {a : α}
    {s : Agent.State σ} (hactive : s.active = entered) (ha : property a) :
    Part property entered (.ok a, s) :=
  ⟨hactive, fun _ h => Except.ok.inj h ▸ ha, .ok a⟩

theorem Part.error {α : Type} {property : α → Prop} {entered : List String} {fault : Fault}
    {s : Agent.State σ} (hactive : s.active = entered)
    (hfault : Unrefused (.error fault : Except Fault α)) :
    Part property entered (.error fault, s) :=
  ⟨hactive, fun _ h => absurd h (by simp), hfault⟩

theorem part_prepareFor (agent : Agent σ) (id : String) (messages : List Message) (now : Moment)
    (model : String) (window : Int) (s : Agent.State σ) :
    Part (fun turn => turn.conversation = id) s.active
      (prepareFor agent id messages now model window s) := by
  unfold prepareFor
  split
  · next fault hfault => exact .error rfl ((unrefused_promptTokens _ _).cast hfault)
  · next usage _ =>
      unfold Agent.compactIn
      cases hdone : agent.compact messages usage window with
      | error fault => exact .error rfl ((unrefused_compact agent messages usage window).cast hdone)
      | ok done =>
          simp only []
          split
          · next fault hfault => exact .error rfl ((unrefused_sections _ _ _ _ _ _).cast hfault)
          · exact .ok rfl rfl

theorem part_prepare (agent : Agent σ) (id : String) (messages : List Message) (now : Moment)
    (s : Agent.State σ) :
    Part (fun turn => turn.conversation = id) s.active (prepare agent id messages now s) := by
  unfold prepare
  simp only []
  split
  · next fault directory hfault =>
      exact .error rfl ((unrefused_resolve _ _ _ _).cast (congrArg Prod.fst hfault))
  · next known directory _ => exact part_prepareFor agent id messages now _ _ { s with directory }

/-- A turn that goes on is one of its conversation. -/
def StaysIn (id : String) (progress : Progress) : Prop :=
  ∀ turn, progress = .calling turn → turn.conversation = id

theorem staysIn_next (maxRounds : Int) (turn : Running) :
    StaysIn turn.conversation (turn.next maxRounds) := by
  intro turn' h
  unfold Running.next at h
  split_ifs at h
  cases h
  rfl

theorem unrefused_record (turn : Running) (reply : Reply) (c : Conversation) :
    Unrefused (record turn reply c).1 := by
  unfold record
  simp only []
  split
  · next fault hfault => exact (unrefused_cost _ _ _).cast hfault
  · next cost _ => exact .ok ()

theorem part_runRound (agent : Agent σ) (turn : Running) (reply : Reply) (s : Agent.State σ) :
    Part (StaysIn turn.conversation) s.active (runRound agent turn reply s) := by
  unfold runRound
  simp only []
  split
  · next fault hfault =>
      unfold Prompt.Rounds.trim at hfault
      split_ifs at hfault
      cases hfault
      exact .error rfl (.error rfl)
  · next trimmed _ =>
      refine .ok rfl ?_
      exact staysIn_next _ _

theorem part_takeReply (agent : Agent σ) (turn : Running) (reply : Reply) (s : Agent.State σ) :
    Part (StaysIn turn.conversation) s.active (takeReply agent turn reply s) := by
  unfold takeReply
  simp only []
  split
  · next fault hfault => exact .error rfl ((unrefused_record _ _ _).cast hfault)
  · split_ifs
    · exact .ok rfl fun _ h => absurd h (by simp)
    · have hround := part_runRound agent { turn with texts := addText reply.content turn.texts } reply
        (s.remember turn.conversation (record turn reply (agent.conversation turn.conversation s)).2)
      exact hround

/-! ## How a turn goes on -/

/-- A turn of a conversation goes on and stays entered, or ends and is taken out. -/
def Leg (id : String) (entered : List String) : Except Fault Progress × Agent.State σ → Prop
  | (.ok (.calling turn), s) => turn.conversation = id ∧ s.active = entered
  | (.ok (.finished _), s) => s.active = entered.erase id
  | (.error _, s) => s.active = entered.erase id

theorem leg_settle {id : String} {entered : List String}
    {result : Except Fault Progress × Agent.State σ} (hactive : result.2.active = entered)
    (hstays : ∀ progress, result.1 = .ok progress → StaysIn id progress) :
    Leg id entered (settle id result) := by
  obtain ⟨progress, s⟩ := result
  match progress with
  | .error fault => exact congrArg (List.erase · id) hactive
  | .ok (.finished outcome) => exact congrArg (List.erase · id) hactive
  | .ok (.calling turn) => exact ⟨hstays _ rfl turn rfl, hactive⟩

theorem fst_settle (id : String) (result : Except Fault Progress × Agent.State σ) :
    (settle id result).1 = result.1 := by
  unfold settle
  split <;> rfl

theorem leg_approach (agent : Agent σ) (id : String) (messages : List Message) (now : Moment)
    (s : Agent.State σ) :
    Leg id s.active (approach agent id messages now s) ∧
      Unrefused (approach agent id messages now s).1 := by
  have hpart := part_prepare agent id messages now s
  cases hprepare : prepare agent id messages now s with
  | mk prepared after =>
      rw [hprepare] at hpart
      simp only [approach, hprepare, fst_settle]
      refine ⟨leg_settle hpart.active fun progress h => ?_, hpart.unrefused.map _⟩
      cases prepared with
      | error fault => exact absurd h (by simp [Except.map])
      | ok first =>
          cases h
          rw [← hpart.value first rfl]
          exact staysIn_next _ _

theorem leg_resume (agent : Agent σ) (turn : Running) (reply : Except String Reply)
    (s : Agent.State σ) :
    Leg turn.conversation s.active (resume agent turn reply s) ∧
      Unrefused (resume agent turn reply s).1 := by
  unfold resume
  cases reply with
  | error text =>
      refine ⟨leg_settle rfl fun progress h turn' hturn => ?_, ?_⟩
      · cases h
        cases hturn
      · rw [fst_settle]
        exact .ok _
  | ok given =>
      have hpart := part_takeReply agent turn given s
      refine ⟨leg_settle hpart.active hpart.value, ?_⟩
      rw [fst_settle]
      exact hpart.unrefused

/-- Every event is a call, or one turn goes on, or nobody is entered or taken out. -/
theorem Schedule.step_cases (agent : Agent σ) (event : Event σ) (s : Schedule σ) :
    (∃ id messages now, event = .call id messages now) ∨
    (∃ place flight result, s.flights[place]? = some flight ∧
      step agent event s = s.goOn place flight.id result ∧
      Leg flight.id s.state.active result ∧
      ((∀ place fault, event ≠ .interrupt place fault) → Unrefused result.1)) ∨
    ∃ state, step agent event s = (.nothing, ⟨state, s.flights⟩) ∧
      state.active = s.state.active := by
  -- an event for a turn does something only if the turn waits for it
  cases event with
  | call id messages now => exact .inl ⟨id, messages, now, rfl⟩
  | approach place =>
      simp only [step]
      split
      · next id messages now hflight =>
          obtain ⟨hleg, hfault⟩ := leg_approach agent id messages now s.state
          exact .inr (.inl ⟨place, _, _, hflight, rfl, hleg, fun _ => hfault⟩)
      · exact .inr (.inr ⟨s.state, rfl, rfl⟩)
  | reply place reply =>
      simp only [step]
      split
      · next turn hflight =>
          obtain ⟨hleg, hfault⟩ := leg_resume agent turn reply s.state
          exact .inr (.inl ⟨place, _, _, hflight, rfl, hleg, fun _ => hfault⟩)
      · exact .inr (.inr ⟨s.state, rfl, rfl⟩)
  | interrupt place fault =>
      simp only [step]
      split
      · next flight hflight =>
          refine .inr (.inl ⟨place, flight, _, hflight, rfl, ?_, fun h => absurd rfl (h place fault)⟩)
          exact leg_settle rfl fun _ hprogress => absurd hprogress (by simp)
      · exact .inr (.inr ⟨s.state, rfl, rfl⟩)
  | change directory conversations world => exact .inr (.inr ⟨_, rfl, rfl⟩)

/-! ## Who is entered -/

/-- Those entered are the conversations of the turns in progress, each of which has one. -/
structure Exclusive (s : Schedule σ) : Prop where
  entered : s.state.active.Perm s.ids
  distinct : s.ids.Nodup

namespace Schedule

variable {s : Schedule σ} {place : Nat} {flight : Flight} {state : Agent.State σ}

theorem getElem?_ids (hflight : s.flights[place]? = some flight) :
    s.ids[place]? = some flight.id := by
  rw [ids, List.getElem?_map, hflight, Option.map_some]

/-- The conversations in progress stay the same while a turn goes on. -/
theorem ids_set (hflight : s.flights[place]? = some flight) {turn : Running}
    (hturn : turn.conversation = flight.id) :
    (⟨state, s.flights.set place (.calling turn)⟩ : Schedule σ).ids = s.ids := by
  obtain ⟨hplace, hget⟩ := List.getElem?_eq_some_iff.1 (getElem?_ids hflight)
  have hset : s.ids.set place flight.id = s.ids := by
    rw [← hget]
    exact List.set_getElem_self hplace
  rw [ids, List.map_set, Flight.id, hturn]
  exact hset

/-- A turn that ends takes its conversation with it. -/
theorem ids_eraseIdx (hdistinct : s.ids.Nodup) (hflight : s.flights[place]? = some flight) :
    (⟨state, s.flights.eraseIdx place⟩ : Schedule σ).ids = s.ids.erase flight.id := by
  obtain ⟨hplace, hget⟩ := List.getElem?_eq_some_iff.1 (getElem?_ids hflight)
  rw [← hget, hdistinct.erase_getElem place hplace]
  exact (List.eraseIdx_map Flight.id s.flights place).symm

/-- A turn that went on stays in both lists, and one that ended is taken out of both. -/
theorem goOn_cases (hdistinct : s.ids.Nodup) (hflight : s.flights[place]? = some flight)
    {result : Except Fault Progress × Agent.State σ} (hleg : Leg flight.id s.state.active result) :
    ((s.goOn place flight.id result).1 = .calling flight.id ∧
      (s.goOn place flight.id result).2.ids = s.ids ∧
      (s.goOn place flight.id result).2.state.active = s.state.active) ∨
    ∃ outcome, (s.goOn place flight.id result).1 = .ended flight.id outcome ∧
      (s.goOn place flight.id result).2.ids = s.ids.erase flight.id ∧
      (s.goOn place flight.id result).2.state.active = s.state.active.erase flight.id ∧
      ∀ fault, outcome = .error fault → result.1 = .error fault := by
  obtain ⟨progress, state⟩ := result
  match progress with
  | .ok (.calling turn) => exact .inl ⟨rfl, ids_set hflight hleg.1, hleg.2⟩
  | .ok (.finished outcome) =>
      exact .inr ⟨.ok outcome, rfl, ids_eraseIdx hdistinct hflight, hleg,
        fun _ h => absurd h (by simp)⟩
  | .error fault =>
      exact .inr ⟨.error fault, rfl, ids_eraseIdx hdistinct hflight, hleg,
        fun _ h => congrArg Except.error (Except.error.inj h)⟩

end Schedule

namespace Exclusive

variable {s : Schedule σ}

/-- A step of one turn. -/
theorem goOn (h : Exclusive s) {place : Nat} {flight : Flight}
    (hflight : s.flights[place]? = some flight)
    {result : Except Fault Progress × Agent.State σ} (hleg : Leg flight.id s.state.active result) :
    Exclusive (s.goOn place flight.id result).2 := by
  rcases Schedule.goOn_cases h.distinct hflight hleg with
    ⟨-, hids, hactive⟩ | ⟨outcome, -, hids, hactive, -⟩
  · constructor
    · rw [hids, hactive]
      exact h.entered
    · rw [hids]
      exact h.distinct
  -- no other turn has its conversation, so taking it out of both lists once is enough
  · constructor
    · rw [hids, hactive]
      exact h.entered.erase flight.id
    · rw [hids]
      exact h.distinct.erase flight.id

theorem enter_eq (h : Exclusive s) (id : String) :
    enter id s.state = if id ∈ s.ids then .error (.turnInProgress id)
      else .ok { s.state with active := id :: s.state.active } := by
  have hcontains : s.state.active.contains id = true ↔ id ∈ s.ids := by
    rw [List.contains_iff_mem]
    exact h.entered.mem_iff
  unfold enter
  simp only [hcontains]

theorem step (h : Exclusive s) (agent : Agent σ) (event : Event σ) :
    Exclusive (Schedule.step agent event s).2 := by
  rcases Schedule.step_cases agent event s with
    ⟨id, messages, now, rfl⟩ | ⟨place, flight, result, hflight, hstep, hleg, -⟩ |
      ⟨state, hstep, hactive⟩
  · simp only [Schedule.step, h.enter_eq]
    by_cases hid : id ∈ s.ids
    · simp only [if_pos hid]
      exact h
    · simp only [if_neg hid]
      exact ⟨h.entered.cons id, List.nodup_cons.2 ⟨hid, h.distinct⟩⟩
  · rw [hstep]
    exact h.goOn hflight hleg
  · rw [hstep]
    exact ⟨hactive ▸ h.entered, h.distinct⟩

theorem run (h : Exclusive s) (agent : Agent σ) (events : List (Event σ)) :
    Exclusive (Schedule.run agent events s).2 := by
  induction events generalizing s with
  | nil => exact h
  | cons event rest ih => exact ih (h.step agent event)

/-! ## Calls -/

/-- A call for a conversation with a turn in progress is refused, and nothing changes. -/
theorem step_call_of_mem (h : Exclusive s) (agent : Agent σ) {id : String} (hid : id ∈ s.ids)
    (messages : List Message) (now : Moment) :
    Schedule.step agent (.call id messages now) s = (.refused id (.turnInProgress id), s) := by
  simp only [Schedule.step, h.enter_eq, if_pos hid]

/-- Any other call is accepted. -/
theorem step_call_of_notMem (h : Exclusive s) (agent : Agent σ) {id : String} (hid : id ∉ s.ids)
    (messages : List Message) (now : Moment) :
    (Schedule.step agent (.call id messages now) s).1 = .entered id := by
  simp only [Schedule.step, h.enter_eq, if_neg hid]

theorem run_calls_of_mem (h : Exclusive s) (agent : Agent σ) {id : String} (hid : id ∈ s.ids)
    (attempts : List (List Message × Moment)) :
    Schedule.run agent (attempts.map fun a => .call id a.1 a.2) s
      = (attempts.map fun _ => .refused id (.turnInProgress id), s) := by
  induction attempts with
  | nil => rfl
  | cons attempt rest ih =>
      simp only [List.map_cons, Schedule.run, h.step_call_of_mem agent hid, ih]

/-! ## Ends -/

/-- An event that ends a turn ends it for good, and no event but an interruption ends it with a
    refusal. -/
theorem step_eq_ended (h : Exclusive s) {agent : Agent σ} {event : Event σ} {id : String}
    {result : Except Fault Outcome} (hended : (Schedule.step agent event s).1 = .ended id result) :
    id ∉ (Schedule.step agent event s).2.ids ∧
      ((∀ place fault, event ≠ .interrupt place fault) → Unrefused result) := by
  rcases Schedule.step_cases agent event s with
    ⟨other, messages, now, rfl⟩ | ⟨place, flight, progress, hflight, hstep, hleg, hunrefused⟩ |
      ⟨state, hstep, -⟩
  · by_cases hid : other ∈ s.ids
    · rw [h.step_call_of_mem agent hid] at hended
      cases hended
    · rw [h.step_call_of_notMem agent hid] at hended
      cases hended
  · rw [hstep] at hended ⊢
    rcases Schedule.goOn_cases h.distinct hflight hleg with
      ⟨hcalling, -⟩ | ⟨outcome, houtcome, hids, -, hfault⟩
    · rw [hcalling] at hended
      cases hended
    · rw [houtcome] at hended
      cases hended
      rw [hids]
      exact ⟨h.distinct.not_mem_erase,
        fun hevent fault hresult => hunrefused hevent fault (hfault fault hresult)⟩
  · rw [hstep] at hended
    cases hended

/-- No event but an accepted call puts a conversation in progress. -/
theorem step_notMem (h : Exclusive s) {agent : Agent σ} {event : Event σ} {id : String}
    (hid : id ∉ s.ids) (hentered : (Schedule.step agent event s).1 ≠ .entered id) :
    id ∉ (Schedule.step agent event s).2.ids := by
  rcases Schedule.step_cases agent event s with
    ⟨other, messages, now, rfl⟩ | ⟨place, flight, result, hflight, hstep, hleg, -⟩ |
      ⟨state, hstep, -⟩
  · by_cases hother : other ∈ s.ids
    · rw [h.step_call_of_mem agent hother]
      exact hid
    · simp only [Schedule.step, h.enter_eq, if_neg hother] at hentered ⊢
      refine List.not_mem_cons_of_ne_of_not_mem (fun heq => hentered ?_) hid
      rw [heq]
      rfl
  · rw [hstep]
    rcases Schedule.goOn_cases h.distinct hflight hleg with
      ⟨-, hids, -⟩ | ⟨outcome, -, hids, -, -⟩
    · rw [hids]
      exact hid
    · rw [hids]
      exact fun hmem => hid (List.mem_of_mem_erase hmem)
  · rw [hstep]
    exact hid

theorem run_notMem (h : Exclusive s) {agent : Agent σ} {events : List (Event σ)} {id : String}
    (hid : id ∉ s.ids) (hentered : .entered id ∉ (Schedule.run agent events s).1) :
    id ∉ (Schedule.run agent events s).2.ids := by
  induction events generalizing s with
  | nil => exact hid
  | cons event rest ih =>
      obtain ⟨hfirst, hrest⟩ := not_or.1 (mt List.mem_cons.2 hentered)
      exact ih (h.step agent event) (h.step_notMem hid (Ne.symm hfirst)) hrest

end Exclusive

/-! ## Any interleaving -/

/-- **A conversation has at most one turn in progress, however the turns of an agent are mixed.** A
    turn begins by being entered, which is one step, and then goes on to its first model call. After
    any events, the conversations entered are those of the turns in progress, and no two of these
    share one. A call is refused exactly if its conversation has a turn in progress, and accepted
    otherwise; no other step ends with a refusal of its own. Refused calls change nothing, however
    many there are. And once a turn has ended, with a result or with an error, the next call for its
    conversation is accepted, unless another one was accepted in between. -/
theorem run_exclusive (agent : Agent σ) (s : Agent.State σ) (hidle : s.active = [])
    (events : List (Event σ)) :
    let reached := (Schedule.run agent events ⟨s, []⟩).2
    (∀ id messages now, begin agent id messages now reached.state
      = match enter id reached.state with
        | .error fault => (.error fault, reached.state)
        | .ok entered => approach agent id messages now entered) ∧
    (∀ id, id ∈ reached.state.active ↔ id ∈ reached.ids) ∧
    reached.state.active.Nodup ∧ reached.ids.Nodup ∧
    (∀ id messages now,
      ((Schedule.step agent (.call id messages now) reached).1 = .refused id (.turnInProgress id)
        ↔ id ∈ reached.ids) ∧
      ((Schedule.step agent (.call id messages now) reached).1 = .entered id
        ↔ id ∉ reached.ids)) ∧
    (∀ event id result, (Schedule.step agent event reached).1 = .ended id result →
      (∀ place fault, event ≠ .interrupt place fault) →
      ∀ other, result ≠ .error (.turnInProgress other)) ∧
    (∀ id, id ∈ reached.ids → ∀ attempts : List (List Message × Moment),
      Schedule.run agent (attempts.map fun a => .call id a.1 a.2) reached
        = (attempts.map fun _ => .refused id (.turnInProgress id), reached)) ∧
    ∀ event id result, (Schedule.step agent event reached).1 = .ended id result →
      ∀ later messages now,
        .entered id ∉ (Schedule.run agent later (Schedule.step agent event reached).2).1 →
        (Schedule.step agent (.call id messages now)
          (Schedule.run agent later (Schedule.step agent event reached).2).2).1 = .entered id := by
  intro reached
  have hstart : Exclusive (⟨s, []⟩ : Schedule σ) := ⟨hidle ▸ .nil, .nil⟩
  have h : Exclusive reached := hstart.run agent events
  refine ⟨fun id messages now => begin_eq agent id messages now _, fun id => h.entered.mem_iff,
    h.entered.nodup_iff.2 h.distinct, h.distinct, fun id messages now => ?_,
    fun event id result hended hevent other hresult => ?_,
    fun id hid attempts => h.run_calls_of_mem agent hid attempts,
    fun event id result hended later messages now hlater => ?_⟩
  · by_cases hid : id ∈ reached.ids
    · rw [h.step_call_of_mem agent hid]
      simp [hid]
    · rw [h.step_call_of_notMem agent hid]
      simp [hid]
  · have hunrefused := (h.step_eq_ended hended).2 hevent _ hresult
    exact absurd hunrefused (by simp [Fault.isRefusal])
  -- the end took the conversation out, and nothing but another accepted call puts it back in
  · have hgone := (h.step_eq_ended hended).1
    have hafter := h.step agent event
    exact (hafter.run agent later).step_call_of_notMem agent (hafter.run_notMem hgone hlater) _ _

/-- Two conversations with a turn each, and another call for the first one. -/
def threeCalls : List (Event Unit) :=
  ["c", "d", "c"].map fun id => .call id [] ⟨2024, 1, 1, 0, 0, 0, .none⟩

/-- What is left after these calls. -/
def crowded : Schedule Unit :=
  (Schedule.run clerk threeCalls ⟨clerk.initial ⟨[], []⟩ (), []⟩).2

/-- The first conversation is refused until its turn is interrupted. -/
theorem run_exclusive_crowded :
    (Schedule.step clerk (.call "c" [] ⟨2024, 1, 1, 0, 0, 0, .none⟩) crowded).1
      = .refused "c" (.turnInProgress "c") ∧
    (Schedule.step clerk (.interrupt 1 .wrongKind) crowded).1 = .ended "c" (.error .wrongKind) ∧
    (Schedule.step clerk (.call "c" [] ⟨2024, 1, 1, 0, 0, 0, .none⟩)
      (Schedule.step clerk (.interrupt 1 .wrongKind) crowded).2).1 = .entered "c" := by
  obtain ⟨-, -, -, -, hcalls, -, -, hends⟩ :=
    run_exclusive clerk (clerk.initial ⟨[], []⟩ ()) rfl threeCalls
  have hids : crowded.ids = ["d", "c"] := rfl
  have hended : (Schedule.step clerk (.interrupt 1 .wrongKind) crowded).1
      = .ended "c" (.error .wrongKind) := rfl
  refine ⟨(hcalls "c" [] _).1.2 ?_, hended, hends _ "c" _ hended [] [] _ (by simp [Schedule.run])⟩
  show "c" ∈ crowded.ids
  rw [hids]
  decide

end Parley.Turn
