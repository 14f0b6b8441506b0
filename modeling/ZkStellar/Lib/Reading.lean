import Mathlib.Data.List.TakeWhile

set_option autoImplicit false

/-! # Texts that are read in one way

A text is put together from words, and whoever reads it has to find the words again. Two words are
read apart (`Apart`) if, in front of whatever may follow a word, they give one text only if they are
the same word. Words in a row with a mark behind them are read apart if the words are
(`flatMap_inj`), and so are words between separators (`intercalate_inj`). -/

namespace ZkStellar.Reading

variable {σ α : Type} {f : α → List σ} {stops : σ → Prop}

/-- The rest of a text is empty or starts with a symbol that may follow a word. -/
def Follows (stops : σ → Prop) (rest : List σ) : Prop := ∀ c ∈ rest.head?, stops c

theorem follows_nil : Follows stops [] := by
  intro c hc
  cases hc

theorem follows_cons {c : σ} {rest : List σ} (hc : stops c) : Follows stops (c :: rest) := by
  intro d hd
  cases hd
  exact hc

/-- In front of rests that may follow them, the words for `x` and `y` are one text only if `x` is
    `y`. -/
def Apart (f : α → List σ) (stops : σ → Prop) (x y : α) : Prop :=
  ∀ r r', Follows stops r → Follows stops r' → f x ++ r = f y ++ r' → x = y ∧ r = r'

/-- Words that are read apart whatever follows, with a mark behind the last one. -/
theorem flatMap_inj {mark : σ} (hapart : ∀ x y, Apart f (fun _ => True) x y)
    (hmark : ∀ x r r', f x ++ r ≠ mark :: r') {xs ys : List α} {r r' : List σ}
    (heq : xs.flatMap f ++ mark :: r = ys.flatMap f ++ mark :: r') : xs = ys ∧ r = r' := by
  have hany : ∀ rest : List σ, Follows (fun _ => True) rest := fun _ _ _ => trivial
  induction xs generalizing ys with
  | nil =>
      rcases ys with _ | ⟨y, ys⟩
      · exact ⟨rfl, List.tail_eq_of_cons_eq heq⟩
      · rw [List.flatMap_cons, List.append_assoc] at heq
        exact absurd heq.symm (hmark y _ r)
  | cons x xs ih =>
      rw [List.flatMap_cons, List.append_assoc] at heq
      rcases ys with _ | ⟨y, ys⟩
      · exact absurd heq (hmark x _ r')
      · rw [List.flatMap_cons, List.append_assoc] at heq
        obtain ⟨rfl, hrest⟩ := hapart x y _ _ (hany _) (hany _) heq
        obtain ⟨rfl, rfl⟩ := ih hrest
        exact ⟨rfl, rfl⟩

/-- A separator in front of every word but the first. -/
theorem intercalate_cons (sep : σ) (w : List σ) (ws : List (List σ)) :
    List.intercalate [sep] (w :: ws) = w ++ ws.flatMap (sep :: ·) := by
  induction ws generalizing w with
  | nil => simp [List.intercalate]
  | cons w' ws ih =>
      have hsplit : List.intercalate [sep] (w :: w' :: ws)
          = w ++ sep :: List.intercalate [sep] (w' :: ws) := by
        simp [List.intercalate, List.intersperse]
      rw [hsplit, ih, List.flatMap_cons, List.cons_append]

section

variable {sep closing : σ} (hne : sep ≠ closing) (hsep : stops sep) (hclosing : stops closing)

include hsep hclosing in
/-- What follows a word of a separated list may follow it. -/
theorem follows_tail (ws : List (List σ)) (r : List σ) :
    Follows stops (ws.flatMap (sep :: ·) ++ closing :: r) := by
  rcases ws with _ | ⟨w, ws⟩
  · exact follows_cons hclosing
  · exact follows_cons hsep

include hne hsep hclosing

theorem tails_inj {xs ys : List α} {r r' : List σ}
    (hapart : ∀ x ∈ xs, ∀ y ∈ ys, Apart f stops x y)
    (heq : (xs.map f).flatMap (sep :: ·) ++ closing :: r
      = (ys.map f).flatMap (sep :: ·) ++ closing :: r') : xs = ys ∧ r = r' := by
  induction xs generalizing ys with
  | nil =>
      rcases ys with _ | ⟨y, ys⟩
      · exact ⟨rfl, List.tail_eq_of_cons_eq heq⟩
      · exact absurd (List.head_eq_of_cons_eq heq).symm hne
  | cons x xs ih =>
      rcases ys with _ | ⟨y, ys⟩
      · exact absurd (List.head_eq_of_cons_eq heq) hne
      · rw [List.map_cons, List.map_cons, List.flatMap_cons, List.flatMap_cons, List.append_assoc,
          List.append_assoc] at heq
        obtain ⟨rfl, hrest⟩ := hapart x List.mem_cons_self y List.mem_cons_self _ _
          (follows_tail hsep hclosing _ r) (follows_tail hsep hclosing _ r')
          (List.tail_eq_of_cons_eq heq)
        obtain ⟨rfl, rfl⟩ := ih (fun x hx y hy =>
          hapart x (List.mem_cons_of_mem _ hx) y (List.mem_cons_of_mem _ hy)) hrest
        exact ⟨rfl, rfl⟩

/-- Words with separators between them and a closing symbol behind, which starts no word. -/
theorem intercalate_inj {xs ys : List α} {r r' : List σ}
    (hapart : ∀ x ∈ xs, ∀ y ∈ ys, Apart f stops x y)
    (hxs : ∀ x ∈ xs, ∀ r r', f x ++ r ≠ closing :: r')
    (hys : ∀ y ∈ ys, ∀ r r', f y ++ r ≠ closing :: r')
    (heq : List.intercalate [sep] (xs.map f) ++ closing :: r
      = List.intercalate [sep] (ys.map f) ++ closing :: r') : xs = ys ∧ r = r' := by
  rcases xs with _ | ⟨x, xs⟩ <;> rcases ys with _ | ⟨y, ys⟩
  · exact ⟨rfl, List.tail_eq_of_cons_eq heq⟩
  · rw [List.map_cons, intercalate_cons, List.append_assoc] at heq
    exact absurd heq.symm (hys y List.mem_cons_self _ _)
  · rw [List.map_cons, intercalate_cons, List.append_assoc] at heq
    exact absurd heq (hxs x List.mem_cons_self _ _)
  · rw [List.map_cons, List.map_cons, intercalate_cons, intercalate_cons, List.append_assoc,
      List.append_assoc] at heq
    obtain ⟨rfl, hrest⟩ := hapart x List.mem_cons_self y List.mem_cons_self _ _
      (follows_tail hsep hclosing _ r) (follows_tail hsep hclosing _ r') heq
    obtain ⟨rfl, rfl⟩ := tails_inj hne hsep hclosing (fun x hx y hy =>
      hapart x (List.mem_cons_of_mem _ hx) y (List.mem_cons_of_mem _ hy)) hrest
    exact ⟨rfl, rfl⟩

end

/-- A word all of whose symbols have a property that no symbol behind it has. -/
theorem eq_of_run {p : σ → Bool} {w w' r r' : List σ} (hw : ∀ c ∈ w, p c = true)
    (hw' : ∀ c ∈ w', p c = true) (hr : Follows (fun c => p c = false) r)
    (hr' : Follows (fun c => p c = false) r') (heq : w ++ r = w' ++ r') : w = w' ∧ r = r' := by
  have hrun : ∀ {w r : List σ}, (∀ c ∈ w, p c = true) → Follows (fun c => p c = false) r →
      (w ++ r).takeWhile p = w := by
    intro w r hw hr
    rw [List.takeWhile_append_of_pos hw]
    rcases r with _ | ⟨c, r⟩
    · rw [List.takeWhile_nil, List.append_nil]
    · have hc : p c = false := hr c rfl
      rw [List.takeWhile_cons_of_neg (by rw [hc]; exact Bool.false_ne_true), List.append_nil]
  have hword : w = w' := by rw [← hrun hw hr, heq, hrun hw' hr']
  rw [hword] at heq
  exact ⟨hword, List.append_cancel_left heq⟩

end ZkStellar.Reading
