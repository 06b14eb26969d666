import Mathlib

/-!
# Texts cut at marks

A text made of pieces, each begun or ended by a mark that stands nowhere else, is cut at the marks
into the pieces.
-/

namespace Segments

variable {α β : Type} {p : α → Bool} {mark : α} {body : β → List α} {l : List β}

theorem splitOnP_begun (hmark : p mark = true) (hbody : ∀ b ∈ l, ∀ x ∈ body b, p x = false)
    {lead : List α} (hlead : ∀ x ∈ lead, p x = false) :
    (lead ++ l.flatMap fun b => mark :: body b).splitOnP p = lead :: l.map body := by
  induction l generalizing lead with
  | nil =>
    rw [List.flatMap_nil, List.append_nil, List.map_nil]
    exact List.splitOnP_eq_singleton hlead
  | cons b l ih =>
    have hrest := fun c hc => hbody c (List.mem_cons_of_mem _ hc)
    rw [List.flatMap_cons, List.cons_append,
      List.splitOnP_append_cons_of_forall_mem hlead mark hmark,
      ih hrest (hbody b List.mem_cons_self), List.map_cons]

theorem splitOnP_ended (hmark : p mark = true) (hbody : ∀ b ∈ l, ∀ x ∈ body b, p x = false) :
    (l.flatMap fun b => body b ++ [mark]).splitOnP p = l.map body ++ [[]] := by
  induction l with
  | nil => rfl
  | cons b l ih =>
    have hrest := fun c hc => hbody c (List.mem_cons_of_mem _ hc)
    rw [List.flatMap_cons, List.append_assoc, List.singleton_append,
      List.splitOnP_append_cons_of_forall_mem (hbody b List.mem_cons_self) mark hmark, ih hrest]
    rfl

end Segments
