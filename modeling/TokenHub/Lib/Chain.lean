import Mathlib.Data.List.Infix
import Mathlib.Tactic.Common

set_option autoImplicit false

namespace TokenHub.Lib.Chain

variable {ρ τ κ : Type} (seq : ρ → ℤ) (prev tag : ρ → τ)

/-- Rows numbered on from `n`, each carrying the tag of the row before it. -/
def Linked : τ → ℤ → List ρ → Prop
  | _, _, [] => True
  | p, n, r :: rs => seq r = n + 1 ∧ prev r = p ∧ Linked (tag r) (n + 1) rs

def lastTag : τ → List ρ → τ
  | p, [] => p
  | _, r :: rs => lastTag (tag r) rs

theorem lastTag_snoc (p : τ) (rs : List ρ) (r : ρ) : lastTag tag p (rs ++ [r]) = tag r := by
  induction rs generalizing p with
  | nil => rfl
  | cons s rs ih => exact ih (tag s)

variable {seq prev tag} {p : τ} {n : ℤ} {r : ρ} {rs ss : List ρ}

theorem linked_append : Linked seq prev tag p n (rs ++ ss) ↔
    Linked seq prev tag p n rs ∧ Linked seq prev tag (lastTag tag p rs) (n + rs.length) ss := by
  induction rs generalizing p n with
  | nil => simp [Linked, lastTag]
  | cons r rs ih =>
    have hlength : n + 1 + (rs.length : ℤ) = n + ((r :: rs).length : ℤ) := by
      rw [List.length_cons]
      omega
    rw [List.cons_append, Linked, Linked, ih, lastTag, hlength, and_assoc, and_assoc]

theorem Linked.seq_gt (h : Linked seq prev tag p n rs) (hr : r ∈ rs) : n < seq r := by
  induction rs generalizing p n with
  | nil => exact absurd hr List.not_mem_nil
  | cons s rs ih =>
    obtain ⟨hseq, -, h⟩ := h
    rcases List.mem_cons.1 hr with rfl | hr
    · omega
    · have := ih h hr
      omega

theorem Linked.seq_le (h : Linked seq prev tag p n rs) (hr : r ∈ rs) : seq r ≤ n + rs.length := by
  induction rs generalizing p n with
  | nil => exact absurd hr List.not_mem_nil
  | cons s rs ih =>
    obtain ⟨hseq, -, h⟩ := h
    rw [List.length_cons]
    rcases List.mem_cons.1 hr with rfl | hr
    · omega
    · have := ih h hr
      omega

theorem Linked.pairwise (h : Linked seq prev tag p n rs) :
    rs.Pairwise (fun r s ↦ seq r < seq s) := by
  induction rs generalizing p n with
  | nil => exact List.Pairwise.nil
  | cons r rs ih =>
    obtain ⟨hseq, -, h⟩ := h
    refine List.pairwise_cons.2 ⟨fun s hs ↦ ?_, ih h⟩
    have := h.seq_gt hs
    omega

/-- A row carries the tag that the chain starts from or the tag of another row. -/
theorem Linked.prev_eq (h : Linked seq prev tag p n rs) (hr : r ∈ rs) :
    prev r = p ∨ ∃ s ∈ rs, prev r = tag s := by
  induction rs generalizing p n with
  | nil => exact absurd hr List.not_mem_nil
  | cons s rs ih =>
    obtain ⟨-, hprev, h⟩ := h
    rcases List.mem_cons.1 hr with rfl | hr
    · exact .inl hprev
    · rcases ih h hr with hs | ⟨s', hs', hs⟩
      · exact .inr ⟨s, List.mem_cons_self .., hs⟩
      · exact .inr ⟨s', List.mem_cons_of_mem _ hs', hs⟩

/-- Rows numbered alike of which each is, in what `content` reads, some row of the other chain,
are a prefix of it in that. -/
theorem Linked.content_extends {content : ρ → κ} {p' : τ} (h : Linked seq prev tag p n rs)
    (h' : Linked seq prev tag p' n ss) (hseq : ∀ r s, content r = content s → seq r = seq s)
    (hmem : ∀ r ∈ rs, ∃ s ∈ ss, content r = content s) :
    rs.map content <+: ss.map content := by
  induction rs generalizing ss p p' n with
  | nil => exact List.nil_prefix
  | cons r rs ih =>
    obtain ⟨hr, -, h⟩ := h
    obtain ⟨s, hs, hrs⟩ := hmem r (List.mem_cons_self ..)
    cases ss with
    | nil => exact absurd hs List.not_mem_nil
    | cons s₀ ss =>
      obtain ⟨hs₀, -, h'⟩ := h'
      have hfirst : s = s₀ := by
        rcases List.mem_cons.1 hs with rfl | hs
        · rfl
        · have hgt := h'.seq_gt hs
          have heq := hseq r s hrs
          omega
      subst hfirst
      rw [List.map_cons, List.map_cons, List.cons_prefix_cons]
      refine ⟨hrs, ih h h' fun r' hr' ↦ ?_⟩
      obtain ⟨s', hs', heq⟩ := hmem r' (List.mem_cons_of_mem _ hr')
      rcases List.mem_cons.1 hs' with rfl | hs'
      · have hgt := h.seq_gt hr'
        have hsame := hseq r' s' heq
        omega
      · exact ⟨s', hs', heq⟩

/-- A prefix of a chain, in numbers and tags, is a chain. -/
theorem Linked.of_extended {content : ρ → κ} (h' : Linked seq prev tag p n ss)
    (hcontent : ∀ r s, content r = content s → seq r = seq s ∧ prev r = prev s ∧ tag r = tag s)
    (hpre : rs.map content <+: ss.map content) : Linked seq prev tag p n rs := by
  induction rs generalizing ss p n with
  | nil => trivial
  | cons r rs ih =>
    cases ss with
    | nil => simp at hpre
    | cons s ss =>
      rw [List.map_cons, List.map_cons, List.cons_prefix_cons] at hpre
      obtain ⟨hseq, hprev, htag⟩ := hcontent r s hpre.1
      obtain ⟨hs, hp, h'⟩ := h'
      refine ⟨hseq.trans hs, hprev.trans hp, ?_⟩
      rw [htag]
      exact ih h' hpre.2

end TokenHub.Lib.Chain
