import Tenure.Proofs.Election.Observations

/-!
# The protocol of an elector

What a consumer of events may rely on, and the store, and whoever watches
the state. A term that an elector leads is published, then announced; it is
ended by being published, revoked and announced in this order, and then
given back, once, as soon as the consumer has confirmed or is gone. Nothing
new is begun before that. All of it holds whatever happens around the
elector, at whatever moment (`Candidate.Execution`).

Each part is a statement on the `latest` of a few kinds of observations, so it
takes an `ElectorStage` that remembers it.
-/

namespace Tenure.Election

open Lease (Request)

/-! ## What the protocol says -/

/-- Which state may be published after which. -/
inductive State.Follows : State → State → Prop
  | attempts : Follows .standby .acquiring
  | fails : Follows .acquiring .standby
  | leads {t : Term} : Follows .acquiring (.leading t)
  | ends {t : Term} : Follows (.leading t) .released
  | rests : Follows .released .standby

namespace Observation

/-- What is published after this. -/
def publish (s : State) : Observation → State
  | shows s' => s'
  | _ => s

/-- What is published at last. An elector is on standby at first. -/
def shown (seen : List Observation) : State := seen.foldl publish .standby

@[simp] theorem shown_append_single (seen : List Observation) (x : Observation) :
    shown (seen ++ [x]) = publish (shown seen) x := List.foldl_append

/-- An announced term ends before another begins, and before the next
attempt and the end of the run. -/
def isTurn : Observation → Bool
  | announces (.becameLeader _) delivered => delivered
  | announces (.lostLeadership _ _) _ => true
  | calls .acquire => true
  | returns => true
  | _ => false

/-- A published term is given back before the same. -/
def isTenure : Observation → Bool
  | shows s => s.isLeader
  | calls .acquire => true
  | calls (.release _) => true
  | returns => true
  | _ => false

/-- What passes between an elector and its consumer. -/
def isWord : Observation → Bool
  | announces _ _ => true
  | hears _ => true
  | _ => false

end Observation

/-- **The protocol of an elector**, of which this has been seen. -/
structure Protocol (seen : List Observation) : Prop where
  /-- The published states follow each other. -/
  states {before after : List Observation} {s : State} (h : seen = before ++ .shows s :: after) :
    (Observation.shown before).Follows s
  /-- A term is announced right after it was published. -/
  begun {before after : List Observation} {t : Term} {delivered : Bool}
    (h : seen = before ++ .announces (.becameLeader t) delivered :: after) :
    before.getLast? = some (.shows (.leading t))
  /-- An announced term is followed by the announcement of its end, -/
  ended {before after : List Observation} {x : Observation} {t : Term}
    (h : seen = before ++ x :: after)
    (hturn : x.isTurn = true)
    (hbegun : latest Observation.isTurn before = some (.announces (.becameLeader t) true)) :
    ∃ reason delivered, x = .announces (.lostLeadership t reason) delivered
  /-- which comes once for each, -/
  endedOnce {before after : List Observation} {t : Term} {reason : LossReason} {delivered : Bool}
    (h : seen = before ++ .announces (.lostLeadership t reason) delivered :: after) :
    latest Observation.isTurn before = some (.announces (.becameLeader t) true)
  /-- right after the term was revoked, when its end has been published. -/
  revoked {before after : List Observation} {t : Term} {reason : LossReason} {delivered : Bool}
    (h : seen = before ++ .announces (.lostLeadership t reason) delivered :: after) :
    before.getLast? = some (.revokes t) ∧ Observation.shown before = .released
  /-- A published term is given back, -/
  released {before after : List Observation} {x : Observation} {t : Term}
    (h : seen = before ++ x :: after)
    (htenure : x.isTenure = true)
    (hled : latest Observation.isTenure before = some (.shows (.leading t))) :
    x = .calls (.release t)
  /-- once, -/
  releasedOnce {before after : List Observation} {t : Term}
    (h : seen = before ++ .calls (.release t) :: after) :
    latest Observation.isTenure before = some (.shows (.leading t))
  /-- after the confirmation, or after an announcement that nobody took. -/
  releasedAfter {before after : List Observation} {t : Term}
    (h : seen = before ++ .calls (.release t) :: after) :
    latest Observation.isWord before = some (.hears t) ∨
      ∃ e : Event, e.term = t ∧ latest Observation.isWord before = some (.announces e false)
  /-- The confirmation answers the announcement of the end. -/
  confirmed {before after : List Observation} {t : Term} (h : seen = before ++ .hears t :: after) :
    ∃ reason, latest Observation.isWord before = some (.announces (.lostLeadership t reason) true)
  /-- A term is renewed only between its publication and its release. -/
  renewed {before after : List Observation} {t : Term}
    (h : seen = before ++ .calls (.renew t) :: after) :
    latest Observation.isTenure before = some (.shows (.leading t))

/-! ## What a stage remembers -/

namespace ElectorStage

/-- What is published at a stage. -/
def Shows : ElectorStage → State → Prop
  | idle, s => s = .standby
  | opening, s => s = .acquiring
  | trying, s => s = .acquiring
  | taken t, s => s = .leading t
  | leading t, s => s = .leading t
  | unheard t, s => s = .leading t
  | ended, _ => True
  | down _, _ => True
  | _, s => s = .released

/-- Where nothing more is seen. -/
def isLast : ElectorStage → Bool
  | ended => true
  | down _ => true
  | _ => false

/-- The term that has been announced and whose end has not. -/
def announced : ElectorStage → Option Term
  | leading t => some t
  | stepping t => some t
  | ceded t => some t
  | _ => none

/-- The term that is led, or has been, and is not given back. -/
def owed : ElectorStage → Option Term
  | taken t => some t
  | leading t => some t
  | unheard t => some t
  | dropping t => some t
  | stepping t => some t
  | ceded t => some t
  | told t => some t
  | heard t => some t
  | deserted t => some t
  | _ => none

/-- What passed last between the elector and its consumer. -/
def HasWord : ElectorStage → Option Observation → Prop
  | unheard t, last => last = some (.announces (.becameLeader t) false)
  | dropping t, last => last = some (.announces (.becameLeader t) false)
  | told t, last => ∃ reason, last = some (.announces (.lostLeadership t reason) true)
  | heard t, last => last = some (.hears t)
  | deserted t, last => ∃ e : Event, e.term = t ∧ last = some (.announces e false)
  | _, _ => True

/-- What was seen right before the stage. -/
def Follows : ElectorStage → Option Observation → Prop
  | taken t, last => last = some (.shows (.leading t))
  | ceded t, last => last = some (.revokes t)
  | _, _ => True

end ElectorStage

/-- Where something more is seen. -/
theorem Next.isLast_eq_false {cancelled : Bool} {a b : ElectorStage} {x : Observation}
    (h : Next cancelled a x b) : a.isLast = false := by
  cases h <;> rfl

section Memory

variable {a : ElectorStage} {seen : List Observation}

theorem shows_of_trail (t : Trail (Next false) .idle seen a) :
    a.Shows (Observation.shown seen) := by
  refine t.history (fun a seen => a.Shows (Observation.shown seen)) (fun a x b seen hx hs => ?_) rfl
  rw [Observation.shown_append_single]
  cases hx <;> first | exact hs | trivial

theorem follows_of_trail (t : Trail (Next false) .idle seen a) : a.Follows seen.getLast? := by
  refine t.history (fun a seen => a.Follows seen.getLast?) (fun a x b seen hx _ => ?_) trivial
  rw [List.getLast?_concat]
  cases hx <;> first | rfl | trivial

theorem hasWord_of_trail (t : Trail (Next false) .idle seen a) :
    a.HasWord (latest Observation.isWord seen) := by
  refine t.latest ElectorStage.HasWord (fun a x b last hx hlast => ?_) trivial
  cases hx with
  | hears | speaksAlone => rfl
  | tells => exact ⟨_, rfl⟩
  | deserts => exact ⟨.becameLeader _, rfl, hlast⟩
  | tellsNobody => exact ⟨.lostLeadership _ _, rfl, rfl⟩
  | drops | drains => exact hlast
  | _ => trivial

/-- What a stage holds is the term of the latest observation of a kind, if each
step that shows one of that kind brings it up to date and no other step
changes it. -/
theorem held_of_trail {keep : Observation → Bool} (mark : Term → Observation)
    (held : ElectorStage → Option Term) (hidle : held .idle = none)
    (hstep : ∀ ⦃a x b⦄, Next false a x b → b.isLast = false →
      ∀ term, if keep x then x = mark term ↔ held b = some term else held b = held a)
    (t : Trail (Next false) .idle seen a) (ha : a.isLast = false) (term : Term) :
    latest keep seen = some (mark term) ↔ held a = some term := by
  have hheld : a.isLast = false →
      (latest keep seen = some (mark term) ↔ held a = some term) := by
    refine t.latest
      (fun a last => a.isLast = false → (last = some (mark term) ↔ held a = some term))
      (fun a x b last hx hlast hb => ?_) fun _ => by simp [hidle]
    have hlast := hlast hx.isLast_eq_false
    have hb := hstep hx hb term
    cases hkeep : keep x with
    | true =>
      rw [hkeep, if_pos rfl] at hb
      rwa [if_pos rfl, Option.some.injEq]
    | false =>
      rw [hkeep, if_neg Bool.false_ne_true] at hb
      rwa [if_neg Bool.false_ne_true, hb]
  exact hheld ha

theorem announced_of_trail (t : Trail (Next false) .idle seen a) (ha : a.isLast = false)
    (term : Term) :
    latest Observation.isTurn seen = some (.announces (.becameLeader term) true) ↔
      a.announced = some term := by
  refine held_of_trail (fun term => .announces (.becameLeader term) true) ElectorStage.announced rfl
    (fun a x b hx hb term => ?_) t ha term
  cases hx with
  | ends | endsTrying | fallsTrying | fallsLeading | fallsTold | fallsHeard | fallsReleasing =>
    contradiction
  | _ => simp [Observation.isTurn, ElectorStage.announced]

theorem owed_of_trail (t : Trail (Next false) .idle seen a) (ha : a.isLast = false)
    (term : Term) :
    latest Observation.isTenure seen = some (.shows (.leading term)) ↔ a.owed = some term := by
  refine held_of_trail (fun term => .shows (.leading term)) ElectorStage.owed rfl
    (fun a x b hx hb term => ?_) t ha term
  cases hx with
  | ends | endsTrying | fallsTrying | fallsLeading | fallsTold | fallsHeard | fallsReleasing =>
    contradiction
  | _ => simp [Observation.isTenure, State.isLeader, ElectorStage.owed]

end Memory

/-! ## The protocol is kept -/

theorem protocol_of_trail {seen : List Observation} {z : ElectorStage}
    (t : Trail (Next false) .idle seen z) : Protocol seen where
  states h := by
    obtain ⟨a, b, hbefore, hx, -⟩ := t.met h
    have hshown := shows_of_trail hbefore
    cases hx <;> (rw [hshown]; constructor)
  begun h := by
    obtain ⟨a, b, hbefore, hx, -⟩ := t.met h
    have hlast := follows_of_trail hbefore
    cases hx <;> exact hlast
  ended h hturn hbegun := by
    obtain ⟨a, b, hbefore, hx, -⟩ := t.met h
    have hannounced := (announced_of_trail hbefore hx.isLast_eq_false _).1 hbegun
    cases hx with
    | tells | tellsNobody =>
      obtain rfl := Option.some.inj hannounced
      exact ⟨_, _, rfl⟩
    | renews | steps | cedes | fallsLeading => exact absurd hturn Bool.false_ne_true
    | _ => contradiction
  endedOnce h := by
    obtain ⟨a, b, hbefore, hx, -⟩ := t.met h
    refine (announced_of_trail hbefore hx.isLast_eq_false _).2 ?_
    cases hx <;> rfl
  revoked h := by
    obtain ⟨a, b, hbefore, hx, -⟩ := t.met h
    have hlast := follows_of_trail hbefore
    have hshown := shows_of_trail hbefore
    cases hx <;> exact ⟨hlast, hshown⟩
  released h htenure hled := by
    obtain ⟨a, b, hbefore, hx, -⟩ := t.met h
    have howed := (owed_of_trail hbefore hx.isLast_eq_false _).1 hled
    cases hx with
    | givesBack | givesBackAlone =>
      obtain rfl := Option.some.inj howed
      rfl
    | opens | tries | misses | takes | rests | ends | endsTrying | fallsTrying | fallsReleasing =>
      contradiction
    | _ => exact absurd htenure Bool.false_ne_true
  releasedOnce h := by
    obtain ⟨a, b, hbefore, hx, -⟩ := t.met h
    refine (owed_of_trail hbefore hx.isLast_eq_false _).2 ?_
    cases hx <;> rfl
  releasedAfter h := by
    obtain ⟨a, b, hbefore, hx, -⟩ := t.met h
    have hword := hasWord_of_trail hbefore
    cases hx with
    | givesBack => exact .inl hword
    | givesBackAlone => exact .inr hword
  confirmed h := by
    obtain ⟨a, b, hbefore, hx, -⟩ := t.met h
    have hword := hasWord_of_trail hbefore
    cases hx with
    | hears => exact hword
  renewed h := by
    obtain ⟨a, b, hbefore, hx, -⟩ := t.met h
    refine (owed_of_trail hbefore hx.isLast_eq_false _).2 ?_
    cases hx <;> rfl

/-- **Every run of an elector keeps to the protocol**, whatever the store
answers, whenever it is told to stop, and however its consumer behaves. -/
theorem Candidate.Execution.protocol {c : Candidate} {seen : List Observation} {e : Elector}
    (h : c.Execution seen e) : Protocol seen := by
  obtain ⟨a, t, -⟩ := h.trail
  exact protocol_of_trail t

/-- A candidate with the usual timings. -/
def anyone : Candidate := ⟨"a", ⟨"lease", 15000⟩, {}⟩

/-- What is found around a step at a moment when nothing is wrong. -/
def moment (time : Nat) : Surroundings := ⟨time, UInt64.ofNat time, false, false, 0⟩

/-- A term that ends because its first renewal fails. -/
def oneTerm : List Observation :=
  [.shows .acquiring, .calls .acquire, .shows (.leading ⟨1⟩), .announces (.becameLeader ⟨1⟩) true,
    .calls (.renew ⟨1⟩), .shows .released, .revokes ⟨1⟩,
    .announces (.lostLeadership ⟨1⟩ .renewFailed) true, .hears ⟨1⟩, .calls (.release ⟨1⟩)]

theorem anyone_execution : ∃ e, anyone.Execution oneTerm e := by
  have h₁ : anyone.Execution _ _ := .step (moment 0) .start (.created (n := 0)) rfl
  have h₂ := h₁.step (moment 1) (.readAnswered (.error (.notFound "lease"))) rfl
  have h₃ := h₂.step (moment 2) (.swapAnswered (.ok ⟨some 1⟩)) rfl
  have h₄ := h₃.step (moment 5002) .timeUp rfl
  have h₅ := h₄.step (moment 5003) (.readAnswered (.error (.unavailable "outage"))) rfl
  have h₆ := h₅.step (moment 9000) .stopped rfl
  exact ⟨_, h₆⟩

/-- The protocol is kept through such a term. -/
theorem protocol_through_term : ∃ e, anyone.Execution oneTerm e ∧ Protocol oneTerm := by
  obtain ⟨e, h⟩ := anyone_execution
  exact ⟨e, h, h.protocol⟩

end Tenure.Election
