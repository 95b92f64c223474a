import Mathlib
import Stencil.Proofs.Render.Meaning

/-! A context over a whole run of operations. The operations tell by themselves how many
scopes are open and which names they bind: the scope in which a name was set is still open
if there were never fewer open scopes since then. -/

namespace Stencil

inductive Operation where
  | set (name : String) (value : Value)
  | lookup (name : String)
  | resolve (path : Path)
  | evaluate (path : Path)
  | render (template : Template)
  | push
  | leave

def Context.perform (context : Context) : Operation → Context
  | .set name value => context.set name value
  | .lookup _ | .resolve _ | .evaluate _ => context
  | .render template => (template.renderIn context).context
  | .push => context.push
  | .leave => context.pop

def Context.run (context : Context) (ops : List Operation) : Context :=
  ops.foldl perform context

/-- How many pushed scopes are open behind an operation. Only pushed scopes are left. -/
def Operation.level (before : Nat) : Operation → Nat
  | push => before + 1
  | leave => before - 1
  | _ => before

def level (ops : List Operation) : Nat :=
  ops.foldl Operation.level 0

/-- The scope that is the innermost one behind `before` stays open in what follows. -/
def StaysOpen (before after : List Operation) : Prop :=
  ∀ part, part <+: after → level before ≤ level (before ++ part)

instance (before after : List Operation) : Decidable (StaysOpen before after) :=
  decidable_of_iff (∀ part ∈ after.inits, level before ≤ level (before ++ part))
    (by simp only [StaysOpen, List.mem_inits])

/-- Behind these operations the scope that was pushed in front of them is the innermost one, and
it was open all the time. What leaves a scope now leaves this one. -/
def Encloses (before inside : List Operation) : Prop :=
  StaysOpen (before ++ [.push]) inside ∧ level (before ++ .push :: inside) = level before + 1

instance (before inside : List Operation) : Decidable (Encloses before inside) :=
  inferInstanceAs (Decidable (_ ∧ _))

/-- Behind `before` the name was set to the value, in a scope that is still open. -/
def SetBehind (history before : List Operation) (name : String) (value : Value) : Prop :=
  ∃ after, history = before ++ .set name value :: after ∧
    StaysOpen before (.set name value :: after)

/-- The value that the name was set to last, in the innermost of the open scopes in which it was
set at all. -/
def LastSet (history : List Operation) (name : String) (value : Value) : Prop :=
  ∃ before, SetBehind history before name value ∧
    ∀ other value', SetBehind history other name value' →
      level other < level before ∨ level other = level before ∧ other.length ≤ before.length

section
variable {before after inside : List Operation} {op : Operation}

theorem level_append (before after : List Operation) :
    level (before ++ after) = after.foldl Operation.level (level before) :=
  List.foldl_append

theorem level_concat (before : List Operation) (op : Operation) :
    level (before ++ [op]) = op.level (level before) :=
  level_append before [op]

theorem StaysOpen.le (h : StaysOpen before after) : level before ≤ level (before ++ after) :=
  h after List.prefix_rfl

theorem staysOpen_nil (before : List Operation) : StaysOpen before [] := by
  intro part hpart
  rw [List.prefix_nil.mp hpart, List.append_nil]

theorem StaysOpen.of_prefix {part : List Operation} (h : StaysOpen before after)
    (hpart : part <+: after) : StaysOpen before part :=
  fun other hother => h other (hother.trans hpart)

theorem StaysOpen.append (h : StaysOpen before inside) (h' : StaysOpen (before ++ inside) after) :
    StaysOpen before (inside ++ after) := by
  intro part hpart
  rcases List.prefix_or_prefix_of_prefix hpart (List.prefix_append inside after) with
    hpart' | ⟨rest, rfl⟩
  · exact h part hpart'
  · rw [List.prefix_append_right_inj] at hpart
    rw [← List.append_assoc]
    exact h.le.trans (h' rest hpart)

theorem staysOpen_concat : StaysOpen before (after ++ [op]) ↔
    StaysOpen before after ∧ level before ≤ level (before ++ (after ++ [op])) := by
  constructor
  · intro h
    exact ⟨h.of_prefix (List.prefix_append ..), h.le⟩
  · rintro ⟨h, hlast⟩ part hpart
    rcases List.prefix_concat_iff.mp hpart with rfl | hpart
    · exact hlast
    · exact h part hpart

theorem exists_push {k : Nat} {ops : List Operation} (h : k < level ops) :
    ∃ before inside, ops = before ++ .push :: inside ∧ level before = k ∧
      StaysOpen (before ++ [.push]) inside := by
  induction ops using List.reverseRecOn with
  | nil => cases h
  | append_singleton ops op ih =>
    by_cases hbefore : k < level ops
    · obtain ⟨before, inside, rfl, rfl, hopen⟩ := ih hbefore
      refine ⟨before, inside ++ [op], by simp, rfl, staysOpen_concat.mpr ⟨hopen, ?_⟩⟩
      rw [level_concat]
      simpa [Operation.level] using h
    · -- the last operation brings the level above `k`, so it is the push
      refine ⟨ops, [], ?_⟩
      rw [level_concat] at h
      cases op with
      | push => exact ⟨rfl, by simp only [Operation.level] at h; omega, staysOpen_nil _⟩
      | leave => simp only [Operation.level] at h; omega
      | _ => exact absurd h hbefore

end

namespace Context
variable {context : Context} {before inside : List Operation}

theorem run_append (context : Context) (before after : List Operation) :
    context.run (before ++ after) = (context.run before).run after :=
  List.foldl_append

theorem run_concat (context : Context) (ops : List Operation) (op : Operation) :
    context.run (ops ++ [op]) = (context.run ops).perform op :=
  run_append context ops [op]

theorem perform_render (context : Context) (template : Template) :
    context.perform (.render template) = context :=
  (renderIn_eq_meaning context template).2

theorem pop_of_outer {scope : Scope} {outer : List Scope} (h : context.outer = scope :: outer) :
    context.pop = ⟨context.host, scope, outer⟩ := by
  rw [pop, pop?, h]
  rfl

theorem pop_of_outer_nil (h : context.outer = []) : context.pop = context := by
  rw [pop, pop?, h]
  rfl

theorem host_perform (context : Context) (op : Operation) :
    (context.perform op).host = context.host := by
  cases op with
  | render template => rw [perform_render]
  | leave =>
    rw [perform]
    cases h : context.outer with
    | nil => rw [pop_of_outer_nil h]
    | cons scope outer => rw [pop_of_outer h]
  | _ => rfl

theorem host_run (context : Context) (ops : List Operation) :
    (context.run ops).host = context.host := by
  induction ops using List.reverseRecOn with
  | nil => rfl
  | append_singleton ops op ih => rw [run_concat, host_perform, ih]

theorem length_outer_perform (context : Context) (op : Operation) :
    (context.perform op).outer.length = op.level context.outer.length := by
  cases op with
  | render template => rw [perform_render]; rfl
  | leave =>
    rw [perform]
    cases h : context.outer with
    | nil => rw [pop_of_outer_nil h, h]; rfl
    | cons scope outer => rw [pop_of_outer h]; rfl
  | _ => rfl

theorem length_outer_run (context : Context) (ops : List Operation) :
    (context.run ops).outer.length = ops.foldl Operation.level context.outer.length := by
  induction ops using List.reverseRecOn with
  | nil => rfl
  | append_singleton ops op ih => rw [run_concat, length_outer_perform, ih, List.foldl_concat]

theorem suffix_outer_perform {scopes : List Scope} (h : scopes <:+ context.outer) (op : Operation)
    (hlength : scopes.length ≤ (context.perform op).outer.length) :
    scopes <:+ (context.perform op).outer := by
  cases op with
  | render template => rwa [perform_render]
  | push => exact h.trans (List.suffix_cons ..)
  | leave =>
    rw [perform] at hlength ⊢
    cases houter : context.outer with
    | nil => rwa [pop_of_outer_nil houter]
    | cons scope outer =>
      rw [houter, List.suffix_cons_iff] at h
      rw [pop_of_outer houter] at hlength ⊢
      rcases h with rfl | h
      · exact absurd hlength (by simp)
      · exact h
  | _ => exact h

theorem suffix_outer_run (hlevel : context.outer.length = level before)
    (hopen : StaysOpen before inside) : context.outer <:+ (context.run inside).outer := by
  induction inside using List.reverseRecOn with
  | nil => exact List.suffix_rfl
  | append_singleton inside op ih =>
    obtain ⟨hinside, hlast⟩ := staysOpen_concat.mp hopen
    rw [run_concat]
    refine suffix_outer_perform (ih hinside) op ?_
    rw [← run_concat, length_outer_run, hlevel, ← level_append]
    exact hlast

/-- When a scope is left, the context is what it was before the scope was pushed. -/
theorem run_leave (hlevel : context.outer = []) (h : Encloses before inside) :
    context.run (before ++ .push :: inside ++ [.leave]) = context.run before := by
  obtain ⟨hopen, hclosed⟩ := h
  have hlength (ops : List Operation) : (context.run ops).outer.length = level ops := by
    rw [length_outer_run, hlevel]
    rfl
  have hpush : (context.run before).push = context.run (before ++ [.push]) :=
    (run_concat context before .push).symm
  have hrun : context.run (before ++ .push :: inside) =
      (context.run before).push.run inside := by
    rw [List.append_cons, run_append, hpush]
  have hsuffix : (context.run before).push.outer <:+
      (context.run (before ++ .push :: inside)).outer := by
    rw [hrun]
    refine suffix_outer_run ?_ hopen
    rw [hpush, hlength]
  have houter : (context.run before).push.outer =
      (context.run (before ++ .push :: inside)).outer := by
    refine hsuffix.eq_of_length ?_
    rw [hlength, hclosed, hpush, hlength, level_concat]
    rfl
  rw [run_concat, perform, pop_of_outer houter.symm, host_run, ← context.host_run before]

end Context

section
variable {before after inside history : List Operation} {op : Operation} {name : String}
  {value : Value}

theorem SetBehind.level_le (h : SetBehind history before name value) :
    level before ≤ level history := by
  obtain ⟨after, rfl, hopen⟩ := h
  exact hopen.le

theorem setBehind_concat : SetBehind (history ++ [op]) before name value ↔
    SetBehind history before name value ∧ level before ≤ level (history ++ [op]) ∨
      before = history ∧ op = .set name value := by
  constructor
  · rintro ⟨after, hhistory, hopen⟩
    rcases List.eq_nil_or_concat' after with rfl | ⟨after, last, rfl⟩
    · obtain ⟨rfl, hop⟩ := List.append_inj' hhistory rfl
      exact Or.inr ⟨rfl, List.singleton_inj.mp hop⟩
    · rw [← List.cons_append, ← List.append_assoc] at hhistory
      obtain ⟨rfl, hop⟩ := List.append_inj' hhistory rfl
      obtain rfl := List.singleton_inj.mp hop
      rw [← List.cons_append] at hopen
      obtain ⟨hafter, hlast⟩ := staysOpen_concat.mp hopen
      exact Or.inl ⟨⟨after, rfl, hafter⟩, by rwa [← List.append_assoc] at hlast⟩
  · rintro (⟨⟨after, rfl, hopen⟩, hlast⟩ | ⟨rfl, rfl⟩)
    · refine ⟨after ++ [op], by simp, ?_⟩
      rw [← List.cons_append]
      exact staysOpen_concat.mpr ⟨hopen, by rwa [← List.append_assoc]⟩
    · refine ⟨[], rfl, ?_⟩
      exact staysOpen_concat.mpr ⟨staysOpen_nil _, by rw [List.nil_append, level_concat]; rfl⟩

theorem setBehind_concat_of_le (hle : level history ≤ level (history ++ [op]))
    (hother : op ≠ .set name value) :
    SetBehind (history ++ [op]) before name value ↔ SetBehind history before name value := by
  rw [setBehind_concat]
  constructor
  · rintro (⟨h, _⟩ | ⟨_, hop⟩)
    · exact h
    · exact absurd hop hother
  · intro h
    exact Or.inl ⟨h, h.level_le.trans hle⟩

theorem Encloses.level_leave (h : Encloses before inside) :
    level (before ++ .push :: inside ++ [.leave]) = level before := by
  rw [level_concat, h.2]
  rfl

theorem Encloses.staysOpen (h : Encloses before inside) :
    StaysOpen before (.push :: inside ++ [.leave]) := by
  have hpush : StaysOpen before ([] ++ [.push]) :=
    staysOpen_concat.mpr ⟨staysOpen_nil _, by simp [level_concat, Operation.level]⟩
  refine staysOpen_concat.mpr ⟨hpush.append h.1, ?_⟩
  rw [← List.append_assoc, h.level_leave]

theorem setBehind_leave {other : List Operation} (h : Encloses before inside) :
    SetBehind (before ++ .push :: inside ++ [.leave]) other name value ↔
      SetBehind before other name value := by
  constructor
  · intro hset
    rw [setBehind_concat, h.level_leave] at hset
    rcases hset with ⟨⟨after, hhistory, hafter⟩, hlevel⟩ | ⟨_, hop⟩
    · rcases List.append_eq_append_iff.mp hhistory with
        ⟨middle, rfl, hmiddle⟩ | ⟨middle, rfl, hmiddle⟩
      · -- from the push on the level was higher than it is now
        rcases middle with _ | ⟨first, middle⟩
        · cases hmiddle
        · obtain ⟨rfl, hinside⟩ := List.cons.inj hmiddle
          have hpart := h.1 middle ⟨_, hinside.symm⟩
          rw [level_concat, Operation.level, List.append_assoc, List.singleton_append] at hpart
          omega
      · rcases middle with _ | ⟨first, middle⟩
        · cases hmiddle
        · obtain ⟨rfl, rfl⟩ := List.cons.inj hmiddle
          exact ⟨middle, rfl, hafter.of_prefix ⟨_, rfl⟩⟩
    · cases hop
  · rintro ⟨after, rfl, hafter⟩
    have hopen := hafter.append h.staysOpen
    rw [List.cons_append] at hopen
    exact ⟨after ++ (.push :: inside ++ [.leave]), by simp, hopen⟩

theorem SetBehind.length_lt (h : SetBehind history before name value) :
    before.length < history.length := by
  obtain ⟨after, rfl, _⟩ := h
  simp

theorem lastSet_congr {history' : List Operation}
    (h : ∀ before value, SetBehind history before name value ↔
      SetBehind history' before name value) :
    LastSet history name value ↔ LastSet history' name value := by
  simp only [LastSet, h]

theorem lastSet_set {value' : Value} :
    LastSet (history ++ [.set name value]) name value' ↔ value = value' := by
  have hlast : SetBehind (history ++ [.set name value]) history name value :=
    setBehind_concat.mpr (Or.inr ⟨rfl, rfl⟩)
  constructor
  · rintro ⟨before, hset, hgreatest⟩
    rcases setBehind_concat.mp hset with ⟨hbefore, _⟩ | ⟨_, hop⟩
    · have hlevel := hbefore.level_le
      have hlength := hbefore.length_lt
      have := hgreatest history value hlast
      omega
    · injection hop
  · rintro rfl
    refine ⟨history, hlast, ?_⟩
    intro other value' hother
    rcases setBehind_concat.mp hother with ⟨hbefore, _⟩ | ⟨rfl, _⟩
    · have hlevel := hbefore.level_le
      have hlength := hbefore.length_lt
      omega
    · exact Or.inr ⟨rfl, Nat.le_refl _⟩

end

/-- Induction on a history: an operation that leaves no scope stands behind the others, and one
that leaves a scope stands behind what this scope encloses. -/
theorem history_induction {motive : List Operation → Prop} (nil : motive [])
    (concat : ∀ ops op, level ops ≤ level (ops ++ [op]) → motive ops → motive (ops ++ [op]))
    (leave : ∀ before inside, Encloses before inside → motive before →
      motive (before ++ .push :: inside ++ [.leave])) :
    ∀ ops, motive ops := by
  intro ops
  induction hn : ops.length using Nat.strongRecOn generalizing ops with
  | ind n ih =>
    rcases List.eq_nil_or_concat' ops with rfl | ⟨ops, op, rfl⟩
    · exact nil
    · rw [List.length_append, List.length_singleton] at hn
      by_cases hle : level ops ≤ level (ops ++ [op])
      · exact concat ops op hle (ih ops.length (by omega) ops rfl)
      · rw [level_concat] at hle
        cases op with
        | leave =>
          rw [Operation.level] at hle
          obtain ⟨before, inside, rfl, hlevel, hopen⟩ :=
            exists_push (show level ops - 1 < level ops by omega)
          have hclosed : level (before ++ .push :: inside) = level before + 1 := by omega
          rw [List.length_append] at hn
          exact leave before inside ⟨hopen, hclosed⟩ (ih before.length (by omega) before rfl)
        | push => exact absurd (Nat.le_succ _) hle
        | _ => exact absurd (Nat.le_refl _) hle

namespace Context

theorem lookup_perform {context : Context} {op : Operation} {name : String}
    (hother : ∀ value, op ≠ .set name value)
    (hle : context.outer.length ≤ (context.perform op).outer.length) :
    (context.perform op).lookup name = context.lookup name := by
  cases op with
  | set other value =>
    rw [perform, lookup_set, if_neg]
    rintro rfl
    exact hother value rfl
  | render template => rw [perform_render]
  | leave =>
    cases houter : context.outer with
    | nil => rw [perform, pop_of_outer_nil houter]
    | cons scope outer =>
      rw [perform, pop_of_outer houter, houter] at hle
      exact absurd hle (by simp)
  | _ => rfl

/-- A context in which not even the model has a name. -/
def unbound (host : Host) : Context where
  host
  innermost := []

theorem length_outer_unbound (host : Host) (ops : List Operation) :
    ((unbound host).run ops).outer.length = level ops :=
  length_outer_run (unbound host) ops

/-- A name stands for what it was set to last in the innermost open scope that knows it. -/
theorem lookup_run (host : Host) (history : List Operation) (name : String) (value : Value) :
    ((unbound host).run history).lookup name = some value ↔ LastSet history name value := by
  induction history using history_induction with
  | nil =>
    refine iff_of_false nofun ?_
    rintro ⟨before, hset, _⟩
    exact Nat.not_lt_zero _ hset.length_lt
  | concat ops op hle ih =>
    by_cases hset : ∃ value', op = .set name value'
    · obtain ⟨value', rfl⟩ := hset
      rw [run_concat, perform, lookup_set, if_pos rfl, lastSet_set, Option.some.injEq]
    · rw [not_exists] at hset
      have hlength := hle
      rw [← length_outer_unbound host, ← length_outer_unbound host, run_concat] at hlength
      rw [run_concat, lookup_perform hset hlength, ih]
      exact (lastSet_congr fun _ value' => setBehind_concat_of_le hle (hset value')).symm
  | leave before inside h ih =>
    rw [run_leave rfl h, ih]
    exact (lastSet_congr fun _ _ => setBehind_leave h).symm

/-- Over any run on a fresh context, one scope and those that were pushed and not left are open. A
name stands for what it was set to last in the innermost open scope that has it, where the model is
set at the beginning, and when a scope is left, the context is what it was before the scope was
pushed, whatever was done in between. -/
theorem run_scoped (host : Host) (model : Value) (ops : List Operation) :
    ((ofModel host model).run ops).depth = 1 + level ops ∧
      (∀ name value, ((ofModel host model).run ops).lookup name = some value ↔
        LastSet (.set modelName model :: ops) name value) ∧
      ∀ before inside, Encloses before inside →
        (ofModel host model).run (before ++ .push :: inside ++ [.leave]) =
          (ofModel host model).run before := by
  have hmodel : (ofModel host model).run ops =
      (unbound host).run (.set modelName model :: ops) := rfl
  refine ⟨?_, ?_, ?_⟩
  · rw [depth, scopes, List.length_cons, length_outer_run, Nat.add_comm]
    rfl
  · intro name value
    rw [hmodel]
    exact lookup_run host _ name value
  · intro before inside h
    exact run_leave rfl h

/-- The scope that is left held a name of its own and another one for the model, and a loop was
rendered in it. -/
theorem run_scoped_loop :
    let before : List Operation := [.set "item" (.string "a")]
    let inside : List Operation := [.set "item" (.list [.null]), .push, .set modelName .null,
      .render [.loop "x" ⟨"item", []⟩ [.output ⟨"x", []⟩]], .leave, .lookup "item"]
    Encloses before inside ∧
      (ofModel .empty .null).run (before ++ .push :: inside ++ [.leave]) =
        (ofModel .empty .null).run before := by
  intro before inside
  have h : Encloses before inside := by
    decide
  exact ⟨h, (run_scoped .empty .null []).2.2 before inside h⟩

end Context
end Stencil
