import ZkStellar.Lib.Execution

set_option autoImplicit false

/-! # Two-step transfer of an office

An office has a holder and at most one nominee. Only its holder nominates, only its nominee takes it
over, and taking over clears the nomination; every other step leaves both as they are
(`Office.Effect`). Over a whole run the nominee is therefore the one its present holder named last,
and every holder is the first one or was nominated by their predecessor and took over for themselves
(`Office.confined`). -/

namespace ZkStellar

/-- An office as the states and inputs of a machine show it. -/
structure Office (σ ι A : Type) where
  holder : σ → Option A
  nominee : σ → Option A
  /-- Whom an input nominates, if it is a nomination. -/
  nominates : ι → Option A
  /-- The input is an attempt to take the office over. -/
  takesOver : ι → Prop
  /-- The input carries somebody's authorisation. -/
  authorised : ι → A → Prop

namespace Office

variable {σ ι ο A : Type} (o : Office σ ι A)

/-- What a step from `s` to `s'` can do to the office. -/
inductive Effect (s : σ) (i : ι) (s' : σ) : Prop where
  | nominated (a p : A) (hnominates : o.nominates i = some p) (hholder : o.holder s = some a)
      (hauth : o.authorised i a) (hholder' : o.holder s' = some a)
      (hnominee' : o.nominee s' = some p)
  | takenOver (p : A) (htakes : o.takesOver i) (hnominee : o.nominee s = some p)
      (hauth : o.authorised i p) (hholder' : o.holder s' = some p) (hnominee' : o.nominee s' = none)
  | kept (hholder : o.holder s' = o.holder s) (hnominee : o.nominee s' = o.nominee s)
      (hno : ∀ p a, o.nominates i = some p → o.holder s = some a → ¬ o.authorised i a)

/-- Every step of the machine has one of these effects. -/
def Respects (m : Machine σ ι ο) : Prop := ∀ s i, o.Effect s i (m.step s i).2

/-- A step at which the holder `a` nominates `p`. -/
def Nomination (e : Entry σ ι ο) (a p : A) : Prop :=
  o.nominates e.input = some p ∧ o.holder e.pre = some a ∧ o.authorised e.input a

/-- A step at which the nominee `p` takes over from the holder `a`. -/
def Succession (e : Entry σ ι ο) (a p : A) : Prop :=
  o.takesOver e.input ∧ o.nominee e.pre = some p ∧ o.authorised e.input p ∧ o.holder e.pre = some a

/-- The nominee, if there is one, was named by the present holder, who has authorised no nomination
    since. -/
def NomineeLatest (tr : List (Entry σ ι ο)) (t : σ) : Prop :=
  ∀ p, o.nominee t = some p → ∃ pre e post a, tr = pre ++ e :: post ∧ o.Nomination e a p ∧
    o.holder t = some a ∧
    ∀ e' ∈ post, ∀ q, o.nominates e'.input = some q → ¬ o.authorised e'.input a

/-- The holder is the first one, or was nominated by their predecessor and took over after that. -/
def Lineage (first : A) (tr : List (Entry σ ι ο)) (t : σ) : Prop :=
  ∃ a, o.holder t = some a ∧ (a = first ∨ ∃ pre e mid e' post b,
    tr = pre ++ e :: (mid ++ e' :: post) ∧ o.Nomination e b a ∧ o.Succession e' b a)

/-- What a respected office guarantees of runs from `start`, where `first` holds it. -/
structure Confined (m : Machine σ ι ο) (start : σ) (first : A) : Prop where
  /-- The holder only changes when the nominee takes over, and then there is no nominee left. -/
  change : ∀ s i, o.holder (m.step s i).2 ≠ o.holder s → ∃ p, o.takesOver i ∧
    o.nominee s = some p ∧ o.authorised i p ∧ o.holder (m.step s i).2 = some p ∧
    o.nominee (m.step s i).2 = none
  nominee_latest : ∀ is, o.NomineeLatest (m.trace start is) (m.run start is)
  lineage : ∀ is, o.Lineage first (m.trace start is) (m.run start is)

variable {o} {m : Machine σ ι ο}

theorem change_of_respects (hm : o.Respects m) (s : σ) (i : ι)
    (hchange : o.holder (m.step s i).2 ≠ o.holder s) : ∃ p, o.takesOver i ∧
      o.nominee s = some p ∧ o.authorised i p ∧ o.holder (m.step s i).2 = some p ∧
      o.nominee (m.step s i).2 = none := by
  cases hm s i with
  | nominated a p _ hholder _ hholder' _ => exact absurd (hholder'.trans hholder.symm) hchange
  | takenOver p htakes hnominee hauth hholder' hnominee' =>
      exact ⟨p, htakes, hnominee, hauth, hholder', hnominee'⟩
  | kept hholder _ _ => exact absurd hholder hchange

/-- A step keeps the nominee the latest one. -/
theorem nomineeLatest_step (hm : o.Respects m) {tr : List (Entry σ ι ο)} {s : σ}
    (hinv : o.NomineeLatest tr s) (i : ι) :
    o.NomineeLatest (tr ++ [⟨s, i, (m.step s i).1⟩]) (m.step s i).2 := by
  intro p hp
  cases hm s i with
  | nominated a q hnominates hholder hauth hholder' hnominee' =>
      obtain rfl : q = p := Option.some.inj (hnominee'.symm.trans hp)
      exact ⟨tr, _, [], a, rfl, ⟨hnominates, hholder, hauth⟩, hholder', by simp⟩
  | takenOver q _ _ _ _ hnominee' =>
      rw [hnominee'] at hp
      cases hp
  | kept hholder hnominee hno =>
      obtain ⟨pre, e, post, a, rfl, hnom, ha, hlast⟩ := hinv p (hnominee.symm.trans hp)
      refine ⟨pre, e, post ++ [⟨s, i, (m.step s i).1⟩], a, by simp, hnom, hholder.trans ha, ?_⟩
      intro e' he' q hq
      rcases List.mem_append.1 he' with hold | hnew
      · exact hlast e' hold q hq
      · obtain rfl := List.mem_singleton.1 hnew
        exact hno q a hq ha

/-- A step extends the line of holders, since the nominee was named by the present one. -/
theorem lineage_step (hm : o.Respects m) {first : A} {tr : List (Entry σ ι ο)} {s : σ}
    (hlatest : o.NomineeLatest tr s) (hinv : o.Lineage first tr s) (i : ι) :
    o.Lineage first (tr ++ [⟨s, i, (m.step s i).1⟩]) (m.step s i).2 := by
  -- the holder stays: the line only gets a later end
  have hstays : o.holder (m.step s i).2 = o.holder s →
      o.Lineage first (tr ++ [⟨s, i, (m.step s i).1⟩]) (m.step s i).2 := by
    intro hsame
    obtain ⟨a, ha, hfirst | ⟨pre, e, mid, e', post, b, rfl, hnom, hsucc⟩⟩ := hinv
    · exact ⟨a, hsame.trans ha, .inl hfirst⟩
    · exact ⟨a, hsame.trans ha, .inr ⟨pre, e, mid, e', post ++ [⟨s, i, (m.step s i).1⟩], b, by simp,
        hnom, hsucc⟩⟩
  cases hm s i with
  | nominated a p _ hholder _ hholder' _ => exact hstays (hholder'.trans hholder.symm)
  | kept hholder _ _ => exact hstays hholder
  | takenOver p htakes hnominee hauth hholder' _ =>
      obtain ⟨pre, e, post, b, rfl, hnom, hb, -⟩ := hlatest p hnominee
      exact ⟨p, hholder', .inr ⟨pre, e, post, ⟨s, i, (m.step s i).1⟩, [], b, by simp, hnom,
        htakes, hnominee, hauth, hb⟩⟩

/-- A machine that respects an office confines it. -/
theorem confined (hm : o.Respects m) {start : σ} {first : A} (hholder : o.holder start = some first)
    (hnominee : o.nominee start = none) : o.Confined m start first := by
  have hlatest : ∀ is, o.NomineeLatest (m.trace start is) (m.run start is) := by
    refine m.run_induction (P := o.NomineeLatest) ?_ fun tr s i hinv => nomineeLatest_step hm hinv i
    intro p hp
    rw [hnominee] at hp
    cases hp
  have hboth : ∀ is, o.NomineeLatest (m.trace start is) (m.run start is) ∧
      o.Lineage first (m.trace start is) (m.run start is) :=
    m.run_induction (P := fun tr s => o.NomineeLatest tr s ∧ o.Lineage first tr s)
      ⟨hlatest [], first, hholder, .inl rfl⟩
      fun tr s i hinv => ⟨nomineeLatest_step hm hinv.1 i, lineage_step hm hinv.1 hinv.2 i⟩
  exact ⟨change_of_respects hm, fun is => (hboth is).1, fun is => (hboth is).2⟩

end Office

end ZkStellar
