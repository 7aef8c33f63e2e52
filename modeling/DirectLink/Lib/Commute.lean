import DirectLink.Lib.Layers

/-!
# Two programs whose commands commute

Two programs run interleaved, command by command.  Where the commands of one commute with those of
the other, an interleaved execution has the outcome of the two programs run one after the other
(`Interleaved.sequential`).  Commands commute up to states that are the same for the purpose at
hand, and up to replies that are similar: programs that take similar replies alike (`Prog.Alike`)
can not tell the difference.
-/

namespace DirectLink

variable {S : Sig} {α β : Type}

/-- Executing two programs from one state, in any order of their commands. -/
inductive Prog.Interleaved {σ : Type} (step : σ → (c : S.Cmd) → S.Reply c → σ → Prop) :
    Prog S α → Prog S β → σ → α → β → σ → Prop
  | done {a : α} {b : β} {s : σ} : Interleaved step (.done a) (.done b) s a b s
  | left {c : S.Cmd} {k : S.Reply c → Prog S α} {q : Prog S β} {r : S.Reply c} {a : α} {b : β}
      {s s' s'' : σ} :
    step s c r s' → Interleaved step (k r) q s' a b s'' → Interleaved step (.call c k) q s a b s''
  | right {c : S.Cmd} {p : Prog S α} {k : S.Reply c → Prog S β} {r : S.Reply c} {a : α} {b : β}
      {s s' s'' : σ} :
    step s c r s' → Interleaved step p (k r) s' a b s'' → Interleaved step p (.call c k) s a b s''

/-- How commands behave, up to states that are the same and replies that are similar. -/
structure Behaviour (S : Sig) : Type 1 where
  State : Type
  Step : State → (c : S.Cmd) → S.Reply c → State → Prop
  /-- What is known of every state. -/
  Inv : State → Prop
  /-- What is known of every reply. -/
  Expected : (c : S.Cmd) → S.Reply c → Prop
  Same : State → State → Prop
  Similar : (c : S.Cmd) → S.Reply c → S.Reply c → Prop
  same_refl : ∀ s, Same s s
  same_trans : ∀ {s s' s''}, Same s s' → Same s' s'' → Same s s''
  similar_trans : ∀ {c r r' r''}, Similar c r r' → Similar c r' r'' → Similar c r r''

namespace Behaviour

variable (B : Behaviour S)

/-- The commands of one kind can be carried out, and what they do is determined. -/
structure Governs (P : S.Cmd → Prop) : Prop where
  total : ∀ {s c}, B.Inv s → P c → ∃ r s', B.Step s c r s'
  kept : ∀ {s c r s'}, B.Inv s → P c → B.Step s c r s' → B.Expected c r ∧ B.Inv s'
  determined : ∀ {s t c r r' s' t'}, B.Inv s → B.Inv t → P c → B.Same s t → B.Step s c r s' →
    B.Step t c r' t' → B.Similar c r r' ∧ B.Same s' t'

/-- Commands of one kind have the same outcome before and after commands of the other. -/
def Commute (P Q : S.Cmd → Prop) : Prop :=
  ∀ {s s₁ s₂ t₁ t₂ c d r r' x x'}, B.Inv s → P c → Q d → B.Step s d x s₁ → B.Step s₁ c r s₂ →
    B.Step s c r' t₁ → B.Step t₁ d x' t₂ →
      B.Similar c r r' ∧ B.Similar d x x' ∧ B.Same s₂ t₂

end Behaviour

/-- The programs issue the same commands, all of one kind, and return related results, as long as
the replies they get are similar. -/
inductive Prog.Alike (B : Behaviour S) (P : S.Cmd → Prop) (A : α → α → Prop) :
    Prog S α → Prog S α → Prop
  | done {a a' : α} : A a a' → Alike B P A (.done a) (.done a')
  | call {c : S.Cmd} {k k' : S.Reply c → Prog S α} :
    P c → (∀ r r', B.Expected c r → B.Expected c r' → B.Similar c r r' →
      Alike B P A (k r) (k' r')) → Alike B P A (.call c k) (.call c k')

namespace Prog.Alike

variable {B : Behaviour S} {P Q : S.Cmd → Prop} {A : α → α → Prop} {A' : β → β → Prop}
variable {p p' : Prog S α} {q : Prog S β} {s t s' t' s₁ : B.State} {a a' : α} {b : β}

theorem bind {f f' : α → Prog S β} (first : Alike B P A p p')
    (rest : ∀ a a', A a a' → Alike B P A' (f a) (f' a')) :
    Alike B P A' (p >>= f) (p' >>= f') := by
  induction first with
  | done related => exact rest _ _ related
  | call kind _ ih => exact .call kind ih

theorem mono {A₁ A₂ : α → α → Prop} (alike : Alike B P A₁ p p')
    (weaken : ∀ a a', A₁ a a' → A₂ a a') : Alike B P A₂ p p' := by
  induction alike with
  | done related => exact .done (weaken _ _ related)
  | call kind _ ih => exact .call kind ih

/-- A program of such commands returns. -/
theorem returns (governs : B.Governs P) (alike : Alike B P A p p') (inv : B.Inv s) :
    ∃ a s', p.Runs B.Step s a s' ∧ B.Inv s' := by
  induction alike generalizing s with
  | @done a _ _ => exact ⟨a, s, .done, inv⟩
  | @call c k k' kind _ ih =>
    obtain ⟨r, s₁, step⟩ := governs.total inv kind
    obtain ⟨expected, inv₁⟩ := governs.kept inv kind step
    have similar := (governs.determined inv inv kind (B.same_refl s) step step).1
    obtain ⟨a, s', run, inv'⟩ := ih r r expected expected similar inv₁
    exact ⟨a, s', .call step run, inv'⟩

/-- Alike programs started in states that are the same end with related results in states that are
the same. -/
theorem outcome (governs : B.Governs P) (alike : Alike B P A p p') (inv : B.Inv s)
    (inv' : B.Inv t) (same : B.Same s t) (run : p.Runs B.Step s a s')
    (run' : p'.Runs B.Step t a' t') : A a a' ∧ B.Same s' t' := by
  induction alike generalizing s t with
  | done related =>
    cases run
    cases run'
    exact ⟨related, same⟩
  | call kind _ ih =>
    cases run with
    | call step rest =>
      cases run' with
      | call step' rest' =>
        obtain ⟨expected, inv₁⟩ := governs.kept inv kind step
        obtain ⟨expected', inv₁'⟩ := governs.kept inv' kind step'
        obtain ⟨similar, same₁⟩ := governs.determined inv inv' kind same step step'
        exact ih _ _ expected expected' similar inv₁ inv₁' same₁ rest rest'

theorem inv_of_runs (governs : B.Governs P) (alike : Alike B P A p p) (inv : B.Inv s)
    (run : p.Runs B.Step s a s') : B.Inv s' := by
  induction run with
  | done => exact inv
  | call step _ ih =>
    cases alike with
    | call kind rest =>
      obtain ⟨expected, inv₁⟩ := governs.kept inv kind step
      have similar := (governs.determined inv inv kind (B.same_refl _) step step).1
      exact ih (rest _ _ expected expected similar) inv₁

/-- The rest of a program after a reply. -/
theorem rest (governs : B.Governs P) {c : S.Cmd} {k : S.Reply c → Prog S α} {r : S.Reply c}
    (alike : Alike B P A (.call c k) (.call c k)) (inv : B.Inv s) (step : B.Step s c r s') :
    Alike B P A (k r) (k r) ∧ B.Inv s' := by
  cases alike with
  | call kind rest =>
    obtain ⟨expected, inv'⟩ := governs.kept inv kind step
    have similar := (governs.determined inv inv kind (B.same_refl _) step step).1
    exact ⟨rest r r expected expected similar, inv'⟩

/-- A command of the other kind has the same outcome before and after a whole program. -/
theorem postpone (governs : B.Governs P) (governs' : B.Governs Q) (commute : B.Commute P Q)
    (trans : ∀ a a' a'', A a a' → A a' a'' → A a a'') (alike : Alike B P A p p')
    (self : Alike B P A p p) {d : S.Cmd} (kind : Q d) (inv : B.Inv s) (inv' : B.Inv t)
    (same : B.Same s t) {x x' : S.Reply d} {u v : B.State} (first : B.Step s d x s₁)
    (run : p.Runs B.Step s₁ a u) (run' : p'.Runs B.Step t a' t')
    (last : B.Step t' d x' v) : A a a' ∧ B.Similar d x x' ∧ B.Same u v := by
  induction alike generalizing s t s₁ a x u with
  | done related =>
    cases run
    cases run'
    exact ⟨related, governs'.determined inv inv' kind same first last⟩
  | @call c k k' allowed _ ih =>
    cases run with
    | @call _ _ r _ _ s₂ _ step rest =>
      cases run' with
      | @call _ _ r' _ _ t₁ _ step' rest' =>
        obtain ⟨_, inv₁⟩ := governs'.kept inv kind first
        obtain ⟨self', inv₂⟩ := self.rest governs inv₁ step
        obtain ⟨expected, _⟩ := governs.kept inv₁ allowed step
        -- the program's first command before the other one
        obtain ⟨r₀, w, step₀⟩ := governs.total inv allowed
        obtain ⟨_, invW⟩ := governs.kept inv allowed step₀
        obtain ⟨x₀, w', first₀⟩ := governs'.total invW kind
        obtain ⟨_, invW'⟩ := governs'.kept invW kind first₀
        obtain ⟨similar, similarX, sameW⟩ := commute inv allowed kind first step step₀ first₀
        obtain ⟨similar', sameT⟩ := governs.determined inv inv' allowed same step₀ step'
        obtain ⟨expected', invT⟩ := governs.kept inv' allowed step'
        -- and its rest after them
        obtain ⟨a₀, u₀, run₀, _⟩ := self'.returns governs invW'
        obtain ⟨related, sameU⟩ := self'.outcome governs inv₂ invW' sameW rest run₀
        obtain ⟨related', similarX', sameV⟩ := ih r r' expected expected'
          (B.similar_trans similar similar') self' invW invT sameT first₀ run₀ rest'
        exact ⟨trans _ _ _ related related', B.similar_trans similarX similarX',
          B.same_trans sameU sameV⟩

end Prog.Alike

namespace Prog.Interleaved

/-- One program after the other is one way to interleave them. -/
theorem of_runs {σ : Type} {step : σ → (c : S.Cmd) → S.Reply c → σ → Prop} {p : Prog S α}
    {q : Prog S β} {s s' s'' : σ} {a : α} {b : β} (first : p.Runs step s a s')
    (second : q.Runs step s' b s'') : Interleaved step p q s a b s'' := by
  induction first with
  | done =>
    induction second with
    | done => exact .done
    | call step _ ih => exact .right step ih
  | call step _ ih => exact .left step (ih second)

/-- The same execution with the programs named the other way round. -/
theorem swap {σ : Type} {step : σ → (c : S.Cmd) → S.Reply c → σ → Prop} {p : Prog S α}
    {q : Prog S β} {s s' : σ} {a : α} {b : β} (run : Interleaved step p q s a b s') :
    Interleaved step q p s b a s' := by
  induction run with
  | done => exact .done
  | left step _ ih => exact .right step ih
  | right step _ ih => exact .left step ih

variable {B : Behaviour S} {P Q : S.Cmd → Prop} {A : α → α → Prop} {A' : β → β → Prop}
variable {p : Prog S α} {q : Prog S β} {s s' : B.State} {a : α} {b : β}

/-- **Commuting programs**: an interleaved execution has the outcome of a sequential one. -/
theorem exists_sequential (governs : B.Governs P) (governs' : B.Governs Q)
    (commute : B.Commute P Q) (trans : ∀ a a' a'', A a a' → A a' a'' → A a a'')
    (trans' : ∀ b b' b'', A' b b' → A' b' b'' → A' b b'') (alike : p.Alike B P A p)
    (alike' : q.Alike B Q A' q) (inv : B.Inv s) (run : Interleaved B.Step p q s a b s') :
    ∃ a₁ s₁ b₁ s₂, p.Runs B.Step s a₁ s₁ ∧ q.Runs B.Step s₁ b₁ s₂ ∧ A a a₁ ∧ A' b b₁ ∧
      B.Same s' s₂ := by
  induction run with
  | done =>
    cases alike with
    | done related =>
      cases alike' with
      | done related' => exact ⟨_, _, _, _, .done, .done, related, related', B.same_refl _⟩
  | left step _ ih =>
    obtain ⟨rest, inv₁⟩ := alike.rest governs inv step
    obtain ⟨a₁, s₁, b₁, s₂, run, run', related⟩ := ih rest alike' inv₁
    exact ⟨a₁, s₁, b₁, s₂, .call step run, run', related⟩
  | @right c p k x a b s s₁ s' first _ ih =>
    obtain ⟨rest, inv₁⟩ := alike'.rest governs' inv first
    obtain ⟨a₁, u, b₁, u', run, run', related, related', same⟩ := ih alike rest inv₁
    have invU := alike.inv_of_runs governs inv₁ run
    have kind : Q c := by
      cases alike' with
      | call kind _ => exact kind
    -- the left program before the command, and the rest of the right one after it
    obtain ⟨a₂, v, run₂, invV⟩ := alike.returns governs inv
    obtain ⟨x', v', last⟩ := governs'.total invV kind
    obtain ⟨expected', invV'⟩ := governs'.kept invV kind last
    obtain ⟨related₂, similar, sameV⟩ := alike.postpone governs governs' commute trans alike kind
      inv inv (B.same_refl s) first run run₂ last
    have expected := (governs'.kept inv kind first).1
    have after : Alike B Q A' (k x) (k x') := by
      cases alike' with
      | call _ all => exact all x x' expected expected' similar
    obtain ⟨b₂, w, run₂', _⟩ := (alike'.rest governs' invV last).1.returns governs' invV'
    obtain ⟨related₂', sameW⟩ := after.outcome governs' invU invV' sameV run' run₂'
    exact ⟨a₂, v, b₂, w, run₂, .call last run₂', trans _ _ _ related related₂,
      trans' _ _ _ related' related₂', B.same_trans same sameW⟩

/-- **Commuting programs**: every sequential execution has the outcome of the interleaved one. -/
theorem sequential (governs : B.Governs P) (governs' : B.Governs Q) (commute : B.Commute P Q)
    (trans : ∀ a a' a'', A a a' → A a' a'' → A a a'')
    (trans' : ∀ b b' b'', A' b b' → A' b' b'' → A' b b'') (alike : p.Alike B P A p)
    (alike' : q.Alike B Q A' q) (inv : B.Inv s) (run : Interleaved B.Step p q s a b s')
    {a₁ : α} {b₁ : β} {s₁ s₂ : B.State} (first : p.Runs B.Step s a₁ s₁)
    (second : q.Runs B.Step s₁ b₁ s₂) : A a a₁ ∧ A' b b₁ ∧ B.Same s' s₂ := by
  obtain ⟨a₂, t₁, b₂, t₂, run₁, run₂, related, related', same⟩ :=
    run.exists_sequential governs governs' commute trans trans' alike alike' inv
  obtain ⟨relatedA, same₁⟩ := alike.outcome governs inv inv (B.same_refl s) run₁ first
  have invT := alike.inv_of_runs governs inv run₁
  have invS := alike.inv_of_runs governs inv first
  obtain ⟨relatedB, same₂⟩ := alike'.outcome governs' invT invS same₁ run₂ second
  exact ⟨trans _ _ _ related relatedA, trans' _ _ _ related' relatedB, B.same_trans same same₂⟩

end Prog.Interleaved

end DirectLink
