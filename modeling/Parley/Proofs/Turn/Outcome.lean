import Parley.Proofs.Turn.Returns
import Parley.Proofs.Turn.Shaping
set_option autoImplicit false

/-! # How a turn ends

A turn calls the model until an answer stops it, that is an error or a reply without tool calls, and
no more often than it may. Which of its three ends it comes to is decided by the place of the first
answer that stops (`FirstStop`). A turn that has come to some round goes on as one that begins there
(`Course`), so its course is put together reply by reply: an answer that stops is the last one,
another one is the last one in the last round, and else leads to the next round.

The one thing that can fail on the way is to count a reply whose numbers of tokens are too large for
a price to be put on them (`Countable`). So a turn that has begun comes to an outcome exactly if all
the replies that it gets to can be counted. -/

namespace Parley

/-! ## Counting a reply -/

namespace Price

theorem isOk_part {price : Number} (h : price.toFloat?.isSome = true) (tokens : Int) :
    (part tokens price).isOk = (quotient tokens 1000000).isOk := by
  obtain ⟨rate, hrate⟩ := Option.isSome_iff_exists.1 h
  cases hquotient : quotient tokens 1000000 with
  | error fault => simp only [part, hquotient, bind, Except.bind]
  | ok millions =>
      simp only [part, Price.rate, hrate, hquotient, bind, Except.bind]
      rfl

theorem isOk_cost {price : Price} (h : price.HasRates) (input output : Int) :
    (price.cost input output).isOk
      = ((quotient input 1000000).isOk && (quotient output 1000000).isOk) := by
  rw [← isOk_part h.1, ← isOk_part h.2]
  cases hinput : part input price.input with
  | error fault =>
      simp only [cost, hinput, bind, Except.bind]
      rfl
  | ok left =>
      cases houtput : part output price.output with
      | error fault =>
          simp only [cost, hinput, houtput, bind, Except.bind]
          rfl
      | ok right =>
          simp only [cost, hinput, houtput, bind, Except.bind]
          rfl

end Price

namespace Turn

open Provider Prompt.Rounds

variable {σ : Type}

/-- A reply whose numbers of tokens, in millions, are not beyond the format of floats. -/
def Countable (reply : Reply) : Prop :=
  (quotient reply.inputTokens 1000000).isOk = true ∧
    (quotient reply.outputTokens 1000000).isOk = true

instance (reply : Reply) : Decidable (Countable reply) :=
  inferInstanceAs (Decidable (_ ∧ _))

theorem isOk_record (turn : Running) (reply : Reply) (c : Conversation) :
    (record turn reply c).1.isOk = true ↔ Countable reply := by
  have hcost := Price.isOk_cost (Price.hasRates_ofModel turn.model) reply.inputTokens
    reply.outputTokens
  unfold Countable
  rw [← Bool.and_eq_true, ← hcost]
  unfold record
  cases (Price.ofModel turn.model).cost reply.inputTokens reply.outputTokens with
  | error fault => exact Iff.rfl
  | ok amount => exact Iff.rfl

/-- A reply that can be counted takes a turn as far as it goes. -/
theorem resume_of_countable (agent : Agent σ) {turn : Running} {reply : Reply} (s : Agent.State σ)
    (hobjects : ∀ message ∈ turn.prompt, message.fields?.isSome = true) (h : Countable reply) :
    ∃ after, resume agent turn (.ok reply) s = (.ok (advance agent turn reply s.world), after) := by
  have hrecord := (isOk_record turn reply (agent.conversation turn.conversation s)).2 h
  unfold resume
  dsimp only
  rw [takeReply_eq agent reply s hobjects]
  rcases hrecorded : record turn reply (agent.conversation turn.conversation s) with ⟨_ | _, c⟩
  · rw [hrecorded] at hrecord
    cases hrecord
  · dsimp only
    cases advance agent turn reply s.world with
    | calling next => exact ⟨_, rfl⟩
    | finished outcome => exact ⟨_, rfl⟩

theorem resume_of_not_countable (agent : Agent σ) {turn : Running} {reply : Reply}
    (s : Agent.State σ) (hobjects : ∀ message ∈ turn.prompt, message.fields?.isSome = true)
    (h : ¬ Countable reply) :
    ∃ fault after, resume agent turn (.ok reply) s = (.error fault, after) := by
  have hrecord := mt (isOk_record turn reply (agent.conversation turn.conversation s)).1 h
  unfold resume
  dsimp only
  rw [takeReply_eq agent reply s hobjects]
  rcases hrecorded : record turn reply (agent.conversation turn.conversation s) with ⟨_ | _, c⟩
  · exact ⟨_, _, rfl⟩
  · rw [hrecorded] at hrecord
    exact absurd rfl hrecord

theorem resume_error (agent : Agent σ) (turn : Running) (text : String) (s : Agent.State σ) :
    resume agent turn (.error text) s
      = (.ok (.finished (turn.outcome .error (some text))), release turn.conversation s) :=
  rfl

/-! ## The first answer that stops a turn -/

/-- What the model answers to the call with some index: once there are no more replies, an error. -/
def replyAt (replies : List (Except String Reply)) (k : Nat) : Except String Reply :=
  replies.getD k (.error noReply)

/-- An answer after which a turn does not go on. -/
def Stops : Except String Reply → Prop
  | .error _ => True
  | .ok reply => reply.toolCalls = []

/-- A turn gets to the call with some index, as far as the answers before it go. -/
def Reaches (replies : List (Except String Reply)) (k : Nat) : Prop :=
  ∀ j < k, ¬ Stops (replyAt replies j)

theorem reaches_zero (replies : List (Except String Reply)) : Reaches replies 0 := nofun

theorem reaches_cons {reply : Except String Reply} (hgoes : ¬ Stops reply)
    (rest : List (Except String Reply)) (k : Nat) :
    Reaches (reply :: rest) (k + 1) ↔ Reaches rest k := by
  constructor
  · intro h j hj
    exact h (j + 1) (Nat.succ_lt_succ hj)
  · intro h j hj
    cases j with
    | zero => exact hgoes
    | succ i => exact h i (Nat.lt_of_succ_lt_succ hj)

/-- The index of the first answer that stops a turn. -/
structure FirstStop (replies : List (Except String Reply)) (k : Nat) : Prop where
  stops : Stops (replyAt replies k)
  reaches : Reaches replies k

theorem FirstStop.of_cons {reply : Except String Reply} {rest : List (Except String Reply)}
    {k : Nat} (h : FirstStop (reply :: rest) k) (hgoes : ¬ Stops reply) :
    ∃ j, k = j + 1 ∧ FirstStop rest j := by
  cases k with
  | zero => exact absurd h.stops hgoes
  | succ j => exact ⟨j, rfl, h.stops, (reaches_cons hgoes rest j).1 h.reaches⟩

theorem FirstStop.cons {reply : Except String Reply} {rest : List (Except String Reply)} {k : Nat}
    (h : FirstStop rest k) (hgoes : ¬ Stops reply) : FirstStop (reply :: rest) (k + 1) :=
  ⟨h.stops, (reaches_cons hgoes rest k).2 h.reaches⟩

/-- The end that an answer puts to a turn. -/
def EndsWith (reply : Except String Reply) (outcome : Outcome) : Prop :=
  match reply with
  | .error text => outcome.stopReason = .error ∧ outcome.error = some text
  | .ok _ => outcome.stopReason = .endTurn ∧ outcome.error = none

/-! ## The course of a turn -/

/-- The texts of the replies among what a model gives. -/
def textsIn (given : List (Except String Reply)) : List String :=
  ((repliesIn given).map Reply.content).filter fun text => !text.isEmpty

/-- How a turn that is in a model call goes on: how many calls it makes from there, that one
    included, and what it comes to. -/
structure Course (maxRounds : Int) (turn : Running) (replies : List (Except String Reply))
    (calls : Nat) (outcome : Outcome) : Prop where
  rounds : outcome.rounds + 1 = turn.round + calls
  content : outcome.content = "\n\n".intercalate (turn.texts ++ textsIn (replies.take calls))
  stopped : ∀ k, FirstStop replies k → turn.round + k ≤ maxRounds →
    calls = k + 1 ∧ EndsWith (replyAt replies k) outcome
  exhausted : (∀ k, FirstStop replies k → maxRounds < turn.round + k) →
    turn.round + calls = maxRounds + 1 ∧ outcome.stopReason = .maxRounds ∧ outcome.error = none

/-- The answer leads to the next round. -/
theorem Course.cons {maxRounds : Int} {turn next : Running} {reply : Reply}
    {rest : List (Except String Reply)} {calls : Nat} {outcome : Outcome}
    (hgoes : reply.toolCalls ≠ []) (hround : next.round = turn.round + 1)
    (htexts : next.texts = turn.texts ++ textsIn [.ok reply])
    (h : Course maxRounds next rest calls outcome) :
    Course maxRounds turn (.ok reply :: rest) (calls + 1) outcome where
  rounds := by
    have hrounds := h.rounds
    push_cast
    omega
  content := by
    have hsplit : textsIn ((.ok reply :: rest).take (calls + 1))
        = textsIn [.ok reply] ++ textsIn (rest.take calls) := by
      show List.filter _ (reply.content :: _) = _
      rw [← List.singleton_append, List.filter_append]
      rfl
    rw [h.content, htexts, hsplit, List.append_assoc]
  stopped := by
    intro k hk hlate
    obtain ⟨j, rfl, hj⟩ := hk.of_cons hgoes
    obtain ⟨hcalls, hends⟩ := h.stopped j hj (by push_cast at hlate; omega)
    exact ⟨congrArg (· + 1) hcalls, hends⟩
  exhausted := by
    intro hlate
    have hrest : ∀ k, FirstStop rest k → maxRounds < next.round + k := by
      intro k hk
      have hk' := hlate (k + 1) (hk.cons hgoes)
      push_cast at hk'
      omega
    obtain ⟨hcalls, hends⟩ := h.exhausted hrest
    refine ⟨?_, hends⟩
    push_cast
    omega

theorem addText_eq_append (reply : Reply) (texts : List String) :
    addText reply.content texts = texts ++ textsIn [.ok reply] := by
  have hone : textsIn [.ok reply] = [reply.content].filter fun text => !text.isEmpty := rfl
  unfold addText
  rw [hone, List.filter_singleton]
  cases reply.content.isEmpty with
  | true => exact (List.append_nil texts).symm
  | false => rfl

/-- What comes of a reply that was counted: it stops the turn, or its calls are run, and then the
    rounds are over or the next one begins. -/
theorem advance_cases {agent : Agent σ} {turn : Running} (reply : Reply) (world : Work.World σ)
    (hobjects : ∀ message ∈ turn.prompt, message.fields?.isSome = true)
    (hround : turn.round ≤ agent.settings.maxToolRounds) :
    (reply.toolCalls = [] ∧ ∃ last : Running,
      last.round = turn.round ∧ last.texts = turn.texts ++ textsIn [.ok reply] ∧
      advance agent turn reply world = .finished (last.outcome .endTurn none)) ∨
    (reply.toolCalls ≠ [] ∧ turn.round = agent.settings.maxToolRounds ∧ ∃ last : Running,
      last.round = turn.round ∧ last.texts = turn.texts ++ textsIn [.ok reply] ∧
      advance agent turn reply world = .finished (last.outcome .maxRounds none)) ∨
    (reply.toolCalls ≠ [] ∧ turn.round < agent.settings.maxToolRounds ∧ ∃ next : Running,
      next.round = turn.round + 1 ∧ next.texts = turn.texts ++ textsIn [.ok reply] ∧
      advance agent turn reply world = .calling next ∧
      ∀ message ∈ next.prompt, message.fields?.isSome = true) := by
  have htexts := addText_eq_append reply turn.texts
  by_cases hcalls : reply.toolCalls = []
  · refine .inl ⟨hcalls, spoken turn reply, rfl, htexts, ?_⟩
    rw [advance, if_pos (List.isEmpty_iff.2 hcalls)]
  · have hgoes : advance agent turn reply world
        = (afterRound agent (spoken turn reply) reply world).next agent.settings.maxToolRounds :=
      if_neg (mt List.isEmpty_iff.1 hcalls)
    rcases hround.lt_or_eq with hmore | hlast
    · have hnext := hgoes.trans (next_of_lt hmore)
      exact .inr (.inr ⟨hcalls, hmore, _, rfl, htexts, hnext,
        (calling_of_advance hobjects hnext).1⟩)
    · exact .inr (.inl ⟨hcalls, hlast, afterRound agent (spoken turn reply) reply world, rfl,
        htexts, hgoes.trans (if_neg hlast.not_lt)⟩)

/-- The replies that a turn gets to, in so many more model calls, can be counted. -/
def CountableUpTo (calls : Int) (replies : List (Except String Reply)) : Prop :=
  ∀ (k : Nat) reply, (k : Int) < calls → Reaches replies k → replyAt replies k = .ok reply →
    Countable reply

theorem countableUpTo_of_nonpos {calls : Int} (h : calls ≤ 0)
    (replies : List (Except String Reply)) : CountableUpTo calls replies := by
  intro k reply hk
  omega

/-- Only the first answer matters if it stops the turn. -/
theorem countableUpTo_of_stops {calls : Int} {replies : List (Except String Reply)}
    (hstops : Stops (replyAt replies 0))
    (h : ∀ reply, replyAt replies 0 = .ok reply → Countable reply) :
    CountableUpTo calls replies := by
  intro k reply _ hreaches hreply
  cases k with
  | zero => exact h reply hreply
  | succ k => exact absurd hstops (hreaches 0 (Nat.succ_pos k))

theorem countableUpTo_of_error {calls : Int} {replies : List (Except String Reply)} {text : String}
    (h : replyAt replies 0 = .error text) : CountableUpTo calls replies := by
  refine countableUpTo_of_stops ?_ ?_
  · rw [h]
    trivial
  · intro reply hreply
    rw [h] at hreply
    cases hreply

theorem countableUpTo_cons {calls : Int} {reply : Reply} {rest : List (Except String Reply)}
    (hcalls : 0 < calls) (hgoes : ¬ Stops (.ok reply)) :
    CountableUpTo calls (.ok reply :: rest)
      ↔ Countable reply ∧ CountableUpTo (calls - 1) rest := by
  constructor
  · intro h
    refine ⟨h 0 reply hcalls (reaches_zero _) rfl, ?_⟩
    intro k other hk hreaches hother
    exact h (k + 1) other (by omega) ((reaches_cons hgoes rest k).2 hreaches) hother
  · rintro ⟨hreply, hrest⟩ k other hk hreaches hother
    cases k with
    | zero =>
        obtain rfl : reply = other := Except.ok.inj hother
        exact hreply
    | succ k => exact hrest k other (by omega) ((reaches_cons hgoes rest k).1 hreaches) hother

/-- A turn comes to an outcome exactly if all the replies that it gets to can be counted. -/
theorem finish_isOk_iff {agent : Agent σ} {replies : List (Except String Reply)} {turn : Running}
    {s : Agent.State σ} (hobjects : ∀ message ∈ turn.prompt, message.fields?.isSome = true)
    (hround : turn.round ≤ agent.settings.maxToolRounds) :
    (∃ outcome, (finish agent replies (.ok (.calling turn), s)).result = .ok outcome)
      ↔ CountableUpTo (agent.settings.maxToolRounds + 1 - turn.round) replies := by
  induction replies generalizing turn s with
  | nil => exact iff_of_true ⟨_, rfl⟩ (countableUpTo_of_error rfl)
  | cons reply rest ih =>
      rw [finish]
      cases reply with
      | error text =>
          rw [resume_error, finish_finished]
          exact iff_of_true ⟨_, rfl⟩ (countableUpTo_of_error rfl)
      | ok given =>
          by_cases hcountable : Countable given
          · obtain ⟨after, hresume⟩ := resume_of_countable agent s hobjects hcountable
            rw [hresume]
            rcases advance_cases given s.world hobjects hround with
              ⟨hcalls, last, -, -, hadvance⟩ | ⟨hcalls, hlast, last, -, -, hadvance⟩ |
              ⟨hcalls, hmore, next, hnext, -, hadvance, hobjects'⟩
            · rw [hadvance, finish_finished]
              refine iff_of_true ⟨_, rfl⟩ (countableUpTo_of_stops hcalls ?_)
              intro reply hreply
              rwa [← Except.ok.inj hreply]
            · rw [hadvance, finish_finished, countableUpTo_cons (by omega) hcalls]
              exact iff_of_true ⟨_, rfl⟩ ⟨hcountable, countableUpTo_of_nonpos (by omega) rest⟩
            · have hleft : agent.settings.maxToolRounds + 1 - turn.round - 1
                  = agent.settings.maxToolRounds + 1 - next.round := by
                omega
              rw [hadvance, countableUpTo_cons (by omega) hcalls, hleft,
                and_iff_right hcountable]
              exact ih hobjects' (by omega)
          · obtain ⟨fault, after, hresume⟩ :=
              resume_of_not_countable agent s hobjects hcountable
            rw [hresume, finish_error]
            refine iff_of_false ?_ ?_
            · rintro ⟨outcome, h⟩
              cases h
            · intro h
              exact hcountable (h 0 given (by omega) (reaches_zero _) rfl)

/-! ## The tool calls of a turn -/

/-- A turn that begins is over at once, or it makes its first model call. -/
theorem begin_cases {agent : Agent σ} {id : String} {messages : List Message} {now : Moment}
    {progress : Progress} {s after : Agent.State σ}
    (h : begin agent id messages now s = (.ok progress, after)) :
    (agent.settings.maxToolRounds ≤ 0 ∧ ∃ last : Running, last.round = 0 ∧ last.texts = [] ∧
      progress = .finished (last.outcome .maxRounds none)) ∨
    (0 < agent.settings.maxToolRounds ∧ ∃ turn : Running, turn.round = 1 ∧ turn.texts = [] ∧
      progress = .calling turn ∧ ∀ message ∈ turn.prompt, message.fields?.isSome = true) := by
  obtain ⟨-, -, hready⟩ := begin_eq_ok h
  obtain ⟨first, before, hprepare, hnext, -⟩ := exists_of_begin_eq_ok h
  obtain ⟨_, _, _, _, _, -, -, -, -, -, hfirst⟩ := exists_of_prepare_eq_ok hprepare
  have hround : first.round = 0 := congrArg Running.round hfirst
  have htexts : first.texts = [] := congrArg Running.texts hfirst
  by_cases hmore : 0 < agent.settings.maxToolRounds
  · have hcalling := hnext.trans (next_of_lt (hround.symm ▸ hmore))
    exact .inr ⟨hmore, { first with round := first.round + 1 }, congrArg (· + 1) hround, htexts,
      hcalling, (hready _ hcalling).2⟩
  · exact .inl ⟨not_lt.1 hmore, first, hround, htexts,
      hnext.trans (if_neg (hround.symm ▸ hmore))⟩

section Run

variable {agent : Agent σ} {id : String} {messages : List Message} {now : Moment}
  {replies : List (Except String Reply)} {s after : Agent.State σ} {progress : Progress}

theorem run_isOk_iff (hbegin : begin agent id messages now s = (.ok progress, after)) :
    (∃ outcome, (run agent id messages now replies s).result = .ok outcome)
      ↔ CountableUpTo agent.settings.maxToolRounds replies := by
  rw [run, hbegin]
  rcases begin_cases hbegin with
    ⟨hnone, last, -, -, rfl⟩ | ⟨hsome, turn, hround, -, rfl, hobjects⟩
  · rw [finish_finished]
    exact iff_of_true ⟨_, rfl⟩ (countableUpTo_of_nonpos hnone replies)
  · rw [finish_isOk_iff hobjects (by omega), hround, Int.add_sub_cancel]

end Run

end Turn

end Parley
