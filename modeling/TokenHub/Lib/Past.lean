import Mathlib.Tactic.Common

set_option autoImplicit false

namespace TokenHub.Lib.Past

variable {ε : Type} {hold hold' : ε → Prop} {start start' : ε → List ε → Prop} {e : ε}
  {log : List ε}

/-- In a log, newest first, something started and each later entry held to it. -/
def Since (hold : ε → Prop) (start : ε → List ε → Prop) : List ε → Prop
  | [] => False
  | e :: older => start e older ∨ (hold e ∧ Since hold start older)

theorem Since.now (h : start e log) : Since hold start (e :: log) := .inl h

theorem Since.later (he : hold e) (h : Since hold start log) : Since hold start (e :: log) :=
  .inr ⟨he, h⟩

theorem Since.append {newer : List ε} (hnewer : ∀ e ∈ newer, hold e) (h : Since hold start log) :
    Since hold start (newer ++ log) := by
  induction newer with
  | nil => exact h
  | cons e newer ih =>
    obtain ⟨he, hnewer⟩ := List.forall_mem_cons.1 hnewer
    exact (ih hnewer).later he

theorem Since.imp (hhold : ∀ e, hold e → hold' e) (hstart : ∀ e older, start e older → start' e older)
    (h : Since hold start log) : Since hold' start' log := by
  induction log with
  | nil => exact h
  | cons e log ih =>
    rcases h with h | ⟨he, h⟩
    · exact .inl (hstart e log h)
    · exact .inr ⟨hhold e he, ih h⟩

/-- Every entry of a log is right about the entries before it. -/
def Lawful (right : ε → List ε → Prop) : List ε → Prop
  | [] => True
  | e :: older => right e older ∧ Lawful right older

theorem lawful_iff {right : ε → List ε → Prop} : Lawful right log ↔
    ∀ newer e older, log = newer ++ e :: older → right e older := by
  induction log with
  | nil => simp [Lawful]
  | cons x log ih =>
    constructor
    · rintro ⟨hx, hlog⟩ newer e older heq
      cases newer with
      | nil =>
        obtain ⟨rfl, rfl⟩ := List.cons.inj heq
        exact hx
      | cons y newer => exact ih.1 hlog newer e older (List.cons.inj heq).2
    · intro h
      refine ⟨h [] x log rfl, ih.2 ?_⟩
      rintro newer e older rfl
      exact h (x :: newer) e older rfl

end TokenHub.Lib.Past
