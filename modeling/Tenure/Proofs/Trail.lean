import Mathlib.Data.List.Basic

/-!
# Trails

A `Trail` lists what is seen on the way from one state to another, one
thing at a time. An order among the things seen – this comes only after
that, and once – is proved by saying what each state remembers of the way
that led to it (`Trail.history`): the state before a thing knows what was
`latest` among those that matter (`Trail.latest`), and only some states
allow the thing (`Trail.met`).
-/

namespace Tenure

variable {σ α : Type}

/-- **The way from one state to another**, with what is seen on it. -/
inductive Trail (next : σ → α → σ → Prop) : σ → List α → σ → Prop
  | nil {a : σ} : Trail next a [] a
  | cons {a b d : σ} {x : α} {xs : List α} (h : next a x b) (t : Trail next b xs d) :
    Trail next a (x :: xs) d

namespace Trail

variable {next : σ → α → σ → Prop} {a b d : σ} {xs ys : List α} {x : α}

theorem single (h : next a x b) : Trail next a [x] b := .cons h .nil

theorem append (t : Trail next a xs b) (u : Trail next b ys d) : Trail next a (xs ++ ys) d := by
  induction t with
  | nil => exact u
  | cons h _ ih => exact .cons h (ih u)

theorem mono {next' : σ → α → σ → Prop} (hnext : ∀ ⦃a x b⦄, next a x b → next' a x b)
    (t : Trail next a xs b) : Trail next' a xs b := by
  induction t with
  | nil => exact .nil
  | cons h _ ih => exact .cons (hnext h) ih

/-- A trail passes through a state wherever it is cut. -/
theorem of_append (t : Trail next a (xs ++ ys) d) :
    ∃ b, Trail next a xs b ∧ Trail next b ys d := by
  induction xs generalizing a with
  | nil => exact ⟨a, .nil, t⟩
  | cons x xs ih =>
    cases t with
    | cons h t =>
      obtain ⟨b, hxs, hys⟩ := ih t
      exact ⟨b, .cons h hxs, hys⟩

/-- Whatever is seen is seen in some state that the trail before it leads
to. -/
theorem met (t : Trail next a xs d) {zs : List α} (h : xs = ys ++ x :: zs) :
    ∃ b b', Trail next a ys b ∧ next b x b' ∧ Trail next b' zs d := by
  subst h
  obtain ⟨b, hys, hzs⟩ := t.of_append
  cases hzs with
  | cons hx hzs => exact ⟨b, _, hys, hx, hzs⟩

/-- What one step keeps, a trail keeps. -/
theorem preserves (P : σ → Prop) (hstep : ∀ ⦃a x b⦄, next a x b → P a → P b)
    (t : Trail next a xs b) (h : P a) : P b := by
  induction t with
  | nil => exact h
  | cons hx _ ih => exact ih (hstep hx h)

/-- **What is held at first and comes on the way is what goes and what is held
in the end**, in this order, if it is so in each step. -/
theorem conserves {β : Type} (P : σ → Prop) (held : σ → List β) {comes goes : α → List β}
    (hstep : ∀ ⦃a x b⦄, next a x b → P a → P b ∧ held a ++ comes x = goes x ++ held b)
    (t : Trail next a xs b) (h : P a) :
    held a ++ xs.flatMap comes = xs.flatMap goes ++ held b := by
  induction t with
  | nil => exact List.append_nil _
  | @cons a b d x xs hx _ ih =>
    obtain ⟨hb, heq⟩ := hstep hx h
    calc held a ++ (comes x ++ xs.flatMap comes)
        = goes x ++ (held b ++ xs.flatMap comes) := by
          rw [← List.append_assoc, heq, List.append_assoc]
      _ = goes x ++ xs.flatMap goes ++ held d := by rw [ih hb, List.append_assoc]

/-- **What a state remembers of its past**: if what the state before a step
remembers of all that was seen is brought up to date by the step, so it is
along a trail. -/
theorem history (remembers : σ → List α → Prop)
    (hstep : ∀ ⦃a x b seen⦄, next a x b → remembers a seen → remembers b (seen ++ [x]))
    (t : Trail next a xs b) (h : remembers a []) : remembers b xs := by
  have along : ∀ seen, remembers a seen → remembers b (seen ++ xs) := by
    clear h
    induction t with
    | nil => exact fun seen h => by rwa [List.append_nil]
    | cons hx _ ih =>
      intro seen h
      rw [List.append_cons]
      exact ih _ (hstep hx h)
  exact along [] h

end Trail

/-! ## The latest of some kind -/

/-- The last thing seen of those that are kept. -/
def latest (keep : α → Bool) (xs : List α) : Option α := (xs.filter keep).getLast?

variable {keep : α → Bool} {xs : List α} {x : α}

@[simp] theorem latest_nil : latest keep [] = none := rfl

@[simp] theorem latest_append_single :
    latest keep (xs ++ [x]) = if keep x then some x else latest keep xs := by
  unfold latest
  rw [List.filter_append, List.filter_singleton]
  cases keep x with
  | true => exact List.getLast?_concat
  | false => exact congrArg List.getLast? (List.append_nil _)

/-- What the states of a trail remember of the latest thing that is kept. -/
theorem Trail.latest {next : σ → α → σ → Prop} {a b : σ} (remembers : σ → Option α → Prop)
    (hstep : ∀ ⦃a x b last⦄, next a x b → remembers a last →
      remembers b (if keep x then some x else last))
    (t : Trail next a xs b) (h : remembers a none) : remembers b (latest keep xs) := by
  refine t.history (fun a seen => remembers a (Tenure.latest keep seen)) ?_ h
  intro a x b seen hx hseen
  rw [latest_append_single]
  exact hstep hx hseen

end Tenure
