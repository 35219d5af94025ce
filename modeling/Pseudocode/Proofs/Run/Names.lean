import Pseudocode.Proofs.Pattern.Ways
import Pseudocode.Proofs.Run.Observer
import Pseudocode.Proofs.Text.Trim

/-!
# The names of variables

Three kinds of statements define variables, and each of them reads names by a pattern of its own. A
definition asks for a name, which does not start with a decimal digit; a dimension and a counting
loop take any word, so that a counter may be called `1`. What they have in common is that **all
that stands in the name of a variable can stand in a word** (`Program.isWordChar_of_mem_defined`).

**Every key of every store that a run goes through comes from a name in the program**
(`Machine.exists_mem_defined`), also in the middle of a statement, where only an observer can see
the store. A key is defined by a statement or at the start of a pass, and a pass counts with the
counter of the loop that started it. This is an invariant of the stack of frames
(`Machine.Counting`).
-/

namespace Pseudocode

/-! ### What patterns find -/

namespace Pattern

variable {α β : Type} {P : α → Prop} {Q : β → Prop}

/-- Whatever a pattern finds has a property. -/
def Only (P : α → Prop) (p : Pattern α) : Prop := ∀ c, ∀ x ∈ p c, P x.1

private theorem Only.bind {p : Pattern α} {q : α → Pattern β} (hp : Only P p)
    (hq : ∀ a, P a → Only Q (q a)) : Only Q (p >>= q) := by
  intro c x hx
  obtain ⟨y, hy, hxy⟩ := mem_bind.mp hx
  exact hq y.1 (hp c y hy) y.2 x hxy

private theorem only_true (p : Pattern α) : Only (fun _ => True) p := fun _ _ _ => trivial

/-- What comes first does not matter. -/
private theorem Only.behind {p : Pattern α} {q : α → Pattern β} (hq : ∀ a, Only Q (q a)) :
    Only Q (p >>= q) :=
  (only_true p).bind fun a _ => hq a

private theorem only_pure {a : α} (h : P a) : Only P (pure a : Pattern α) := by
  intro c x hx
  rwa [mem_pure.mp hx]

private theorem only_run (inClass : Char → Bool) :
    Only (fun piece => ∀ k ∈ piece.text, inClass k = true) (run inClass) := by
  intro c x hx
  obtain ⟨a, b, -, hrest, ha, rfl⟩ := mem_run.mp hx
  intro k hk
  rw [Piece.text, hrest, List.take_left] at hk
  exact ha k hk

private theorem Only.find? {p : Pattern α} (hp : Only P p) {t : Text} {a : α}
    (h : p.find? t = some a) :
    P a := by
  obtain ⟨x, hx, rfl⟩ := exists_mem_of_find? h
  exact hp _ x hx

private theorem Only.findAllFrom {p : Pattern α} (hp : Only P p) {steps : Nat} {c : Cursor} {a : α}
    (h : a ∈ p.findAllFrom steps c) : P a := by
  induction steps generalizing c with
  | zero => cases h
  | succ steps ih =>
    rw [Pattern.findAllFrom] at h
    split at h
    · next hhead =>
      rcases List.mem_cons.mp h with rfl | h
      · exact hp _ _ (List.mem_of_mem_head? hhead)
      · exact ih h
    · exact ih h
    · cases h

end Pattern

/-! ### The names in a program -/

/-- The names of the variables that a statement defines, at once or in the passes that it starts. -/
def Action.defined : Action → List Text
  | declare names _ => names
  | dimension arrays _ => arrays.map Prod.fst
  | forLoop counter _ _ _ _ => [counter]
  | _ => []

/-- The name of the variable that passes count with. -/
def Passes.defined : Passes → List Text
  | counted counter _ _ _ _ => [counter]
  | _ => []

/-- The names of the variables that a program defines. -/
def Program.defined (program : Program) : List Text :=
  program.statements.toList.flatMap (·.action.defined)

namespace Shape

open Pattern

/-- The names in a list of arrays are made of the characters of words. -/
private theorem only_arrayItem :
    Only (fun item => ∀ k ∈ item.1, Text.isWordChar k = true) arrayItem :=
  (only_run _).bind fun _ hname => .behind fun _ => .behind fun _ => .behind fun _ =>
    .behind fun _ => only_pure hname

/-- The counter of a loop is made of the characters of words. -/
private theorem only_forLoop :
    Only (fun counting => ∀ k ∈ counting.counter, Text.isWordChar k = true) forLoop :=
  .behind fun _ => .behind fun _ => (only_run _).bind fun _ hcounter => .behind fun _ =>
    .behind fun _ => .behind fun _ => .behind fun _ => .behind fun _ => .behind fun _ =>
      .behind fun _ => .behind fun _ => .behind fun _ => .behind fun _ => only_pure hcounter

end Shape

namespace Action

private theorem isWordChar_of_mem_declare {names type name : Text}
    (h : name ∈ (readDeclare names type).defined) : ∀ k ∈ name, Text.isWordChar k = true := by
  rw [readDeclare] at h
  split at h
  · next hall =>
    have hmem : name ∈ namesOf names := h
    obtain ⟨t, -, rfl⟩ := List.mem_map.mp hmem
    exact Text.isWordChar_of_isName (Text.trimmed_trim t) (List.all_eq_true.mp hall _ hmem)
  · cases h

private theorem isWordChar_of_mem_dimension {list name : Text}
    (h : name ∈ (readDimension list).defined) :
    ∀ k ∈ name, Text.isWordChar k = true := by
  rw [readDimension] at h
  split at h
  · cases h
  · rw [defined, List.map_map] at h
    obtain ⟨item, hitem, rfl⟩ := List.mem_map.mp h
    have hword : ∀ k ∈ item.1, Text.isWordChar k = true :=
      Shape.only_arrayItem.findAllFrom hitem
    exact hword

/-- A statement defines variables by words only. -/
theorem isWordChar_of_mem_defined {lines : List Line} {i : Nat} {text name : Text}
    (h : name ∈ (read lines i text).defined) : ∀ k ∈ name, Text.isWordChar k = true := by
  unfold read at h
  split at h
  · cases h
  split at h
  · exact isWordChar_of_mem_declare h
  split at h
  · exact isWordChar_of_mem_dimension h
  split at h
  · cases h
  split at h
  · cases h
  split at h
  · cases h
  split at h
  · next counting hfind =>
    obtain rfl := List.mem_singleton.mp h
    exact Shape.only_forLoop.find? hfind
  split at h
  · cases h
  split at h
  · cases h
  split at h
  · cases h
  split at h
  · unfold readAssign at h
    split at h <;> cases h
  · cases h

end Action

/-- **All that stands in the name of a variable can stand in a word.** -/
theorem Program.isWordChar_of_mem_defined {source name : Text}
    (h : name ∈ (ofSource source).defined) : ∀ k ∈ name, Text.isWordChar k = true := by
  obtain ⟨st, hst, hname⟩ := List.mem_flatMap.mp h
  have hmem : st ∈ statementsOf (Line.ofSource source) := hst
  obtain ⟨i, hi, rfl⟩ := List.mem_mapIdx.mp hmem
  exact Action.isWordChar_of_mem_defined hname

/-! ### The counters of loops -/

namespace Exec

variable {α β : Type} {P : α → Prop} {Q : β → Prop}

/-- Whatever a part of a run gives has a property. -/
def Returns (P : α → Prop) (e : Exec α) : Prop :=
  ∀ (around : Surroundings) (s : RunState) (a : α) (s' : RunState),
    e.run around s = (.ok a, s') → P a

private theorem returns_pure {a : α} (h : P a) : Returns P (pure a : Exec α) := by
  rintro around s a s' ⟨⟩
  exact h

/-- Nothing is given. -/
private theorem returns_none : Returns (fun b => ∀ a ∈ b, P a) (pure none : Exec (Option α)) :=
  returns_pure fun a ha => absurd ha (Option.not_mem_none a)

private theorem returns_some {a : α} (h : P a) :
    Returns (fun b => ∀ a ∈ b, P a) (pure (some a) : Exec (Option α)) := by
  refine returns_pure fun b hb => ?_
  obtain rfl := Option.some.inj hb
  exact h

private theorem returns_throw (fault : Fault) : Returns P (throw fault : Exec α) := by
  rintro around s a s' ⟨⟩

private theorem Returns.bind {e : Exec α} {k : α → Exec β} (he : Returns P e)
    (hk : ∀ a, P a → Returns Q (k a)) : Returns Q (e >>= k) := by
  intro around s b s' h
  rw [run_bind] at h
  rcases hr : e.run around s with ⟨fault | a, t⟩
  · rw [hr] at h
    cases h
  · rw [hr] at h
    exact hk a (he around s a t hr) around t b s' h

/-- What comes first does not matter. -/
private theorem Returns.behind {e : Exec α} {k : α → Exec β} (hk : ∀ a, Returns Q (k a)) :
    Returns Q (e >>= k) :=
  Returns.bind (P := fun _ => True) (fun _ _ _ _ _ => trivial) fun a _ => hk a

/-- A loop with a condition defines nothing. -/
private theorem returns_startWhile (condition : Text) :
    Returns (fun passes => passes.defined ⊆ []) (startWhile condition) :=
  .behind fun _ => .behind fun _ => returns_pure (List.Subset.refl _)

/-- A counting loop defines its counter. -/
private theorem returns_startFor (counter first last : Text) (step : Option Text) :
    Returns (fun passes => passes.defined ⊆ [counter]) (startFor counter first last step) :=
  .behind fun _ => .behind fun _ => .behind fun _ => .behind fun _ =>
    returns_pure (List.Subset.refl _)

private theorem passes_of_elseBody {i size : Nat} {program : Program} {branches : Branches}
    {h : branches.Within (i + 1) size} {b : Body i size}
    (helse : elseBody program branches h = some b) : b.passes = .once true := by
  unfold elseBody at helse
  split at helse
  · cases helse
  · obtain rfl := Option.some.inj helse
    split <;> rfl

/-- The passes over a body that is opened count with a variable of the statement. -/
private theorem returns_statement {i size : Nat} (program : Program) (a : Action)
    (h : a.Fits i size) :
    Returns (fun body => ∀ b ∈ body, b.passes.defined ⊆ a.defined) (statement program a h) := by
  -- only loops count: what a choice or a conditional opens is passed over once
  have honce {b : Body i size} (hb : b.passes = .once true) : b.passes.defined ⊆ a.defined := by
    rw [hb]
    exact List.nil_subset _
  cases a with
  | skip | marker => exact returns_none
  | declare | dimension | input | output | assign => exact .behind fun _ => returns_none
  | whileLoop condition body =>
    exact .bind (returns_startWhile condition) fun _ hpasses => returns_some hpasses
  | forLoop counter first last step body =>
    exact .bind (returns_startFor counter first last step) fun _ hpasses =>
      returns_some hpasses
  | choice subject cases =>
    refine .behind fun value => .behind fun _ => ?_
    split
    · exact returns_throw _
    · exact .behind fun _ => .behind fun _ => returns_some (honce rfl)
    · split
      · exact returns_none
      · exact .behind fun _ => returns_some (honce rfl)
  | conditional condition branches chained =>
    refine .behind fun holds => .behind fun _ => returns_pure fun b hb => honce ?_
    cases holds with
    | true =>
      obtain rfl := Option.some.inj hb
      rfl
    | false => exact passes_of_elseBody (h := h) hb

/-- The passes that are left count with the same variable. -/
private theorem returns_nextPass (passes : Passes) :
    Returns (fun left => ∀ q ∈ left, q.1.defined = passes.defined) (nextPass passes) := by
  match passes with
  | .once true => exact returns_some rfl
  | .once false | .whilst _ 0 => exact returns_none
  | .whilst condition (left + 1) =>
    refine .behind fun holds => ?_
    cases holds with
    | false => exact returns_none
    | true => exact returns_some rfl
  | .counted counter next last step h =>
    rw [nextPass]
    split
    · exact .behind fun _ => returns_some rfl
    · exact returns_none

end Exec

namespace Machine

variable {program : Program} {around : Surroundings}

/-- The loops on a stack count with variables that the program defines. -/
def Counting (frames : List (Frame program.size)) : Prop :=
  ∀ f ∈ frames, f.passes.defined ⊆ program.defined

/-- The frames define only what the program defines. -/
private theorem counting_cons_iff {f : Frame program.size} {rest : List (Frame program.size)} :
    Counting (f :: rest) ↔ f.passes.defined ⊆ program.defined ∧ Counting rest :=
  List.forall_mem_cons

/-- What a statement defines, the program defines. -/
private theorem defined_subset {st : Statement} {i : Nat} (h : program.statements[i]? = some st) :
    st.action.defined ⊆ program.defined :=
  fun _ hname => List.mem_flatMap.mpr ⟨st, (Array.mem_of_getElem? h).val, hname⟩

private theorem returns_proceed {f : Frame program.size} {rest : List (Frame program.size)}
    (h : Counting (f :: rest)) : Exec.Returns Counting (proceed f rest) := by
  obtain ⟨hf, hrest⟩ := counting_cons_iff.mp h
  unfold proceed
  split
  · next hlt =>
    refine (Exec.returns_statement _ _ _).bind fun body hbody => ?_
    cases body with
    | none => exact Exec.returns_pure (counting_cons_iff.mpr ⟨hf, hrest⟩)
    | some body =>
      have hst := Array.getElem?_eq_getElem (position_lt_size hlt)
      have hdefined := List.Subset.trans (hbody body rfl) (defined_subset hst)
      exact Exec.returns_pure
        (counting_cons_iff.mpr ⟨hdefined, counting_cons_iff.mpr ⟨hf, hrest⟩⟩)
  · refine (Exec.returns_nextPass f.passes).bind fun passes hpasses => ?_
    cases passes with
    | none => exact Exec.returns_pure hrest
    | some passes =>
      have hdefined : passes.1.defined ⊆ program.defined := hpasses passes rfl ▸ hf
      exact Exec.returns_pure (counting_cons_iff.mpr ⟨hdefined, hrest⟩)

/-- **A turn leaves only frames that define what the program defines.** -/
private theorem Counting.turn {s : RunState} {f : Frame program.size}
    {rest : List (Frame program.size)} {d : Config program} (h : Counting (f :: rest))
    (hturn : Machine.turn around (s, f :: rest) = some d) : Counting d.2 := by
  rw [turn_eq] at hturn
  split at hturn
  · cases hturn
  · rcases hrun : (proceed f rest).run around s with ⟨fault | new, s'⟩
    · rw [hrun] at hturn
      obtain rfl := Option.some.inj hturn
      exact h
    · rw [hrun] at hturn
      obtain rfl := Option.some.inj hturn
      exact returns_proceed h around s new s' hrun

/-- What the frame on top introduces has a name in the program. -/
private theorem exists_mem_defined_of_introduces {f : Frame program.size}
    {rest : List (Frame program.size)} (h : Counting (f :: rest)) {key : Text}
    (hkey : Introduces f key) : ∃ name ∈ program.defined, name.lower = key := by
  rcases hkey with
    ⟨⟨line, action⟩, -, hst, hnames⟩ | ⟨-, counter, next, last, step, hne, hpasses, rfl⟩
  · rcases hnames with ⟨names, type, rfl, name, hname, rfl⟩ | ⟨arrays, source, rfl, p, hp, rfl⟩
    · exact ⟨name, defined_subset hst hname, rfl⟩
    · exact ⟨p.1, defined_subset hst (List.mem_map_of_mem hp), rfl⟩
  · have hf := (counting_cons_iff.mp h).1
    rw [hpasses] at hf
    exact ⟨counter, hf List.mem_cons_self, rfl⟩

end Machine

/-! ### The stores of a run -/

/-- The stores that can be seen at a time: the store as it is, and what an observer was told of. -/
def RunState.stores (s : RunState) : List Store := s.store :: s.snapshots.toList

namespace Exec

open Relation (ReflTransGen)

variable {around : Surroundings} {p : Permit} {s t : RunState}

/-- The stores after an effect are those before it, and perhaps the new one. -/
private theorem Effect.mem_stores (h : Effect around p s t) {store : Store}
    (hstore : store ∈ t.stores) :
    store = t.store ∨ store ∈ s.stores := by
  rcases List.mem_cons.mp hstore with rfl | hsnapshot
  · exact .inl rfl
  cases h with
  | tell _ _ _ =>
    rcases Array.mem_push.mp (Array.mem_toList_iff.mp hsnapshot) with hold | rfl
    · exact .inr (List.mem_cons_of_mem _ (Array.mem_toList_iff.mpr hold))
    · exact .inl rfl
  | change | evaluate | ask | addNode | write => exact .inr (List.mem_cons_of_mem _ hsnapshot)

/-- **A key of a store that was gone through** was there before or was defined by a change that is
permitted. -/
theorem exists_defines_of_mem_stores (h : ReflTransGen (Effect around p) s t)
    (hs : s.store.keys.Nodup) {store : Store} (hstore : store ∈ t.stores) {key : Text}
    (hkey : key ∈ store.keys) : (∃ old ∈ s.stores, key ∈ old.keys) ∨
      ∃ change v, p.changes change ∧ Store.Defines change v ∧ v.key = key := by
  induction h with
  | refl => exact .inl ⟨store, hstore, hkey⟩
  | tail heffects heffect ih =>
    rcases heffect.mem_stores hstore with rfl | hold
    · refine (exists_defines_of_effects (heffects.tail heffect) hs hkey).imp_left fun hkey => ?_
      exact ⟨s.store, List.mem_cons_self, hkey⟩
    · exact ih hold

end Exec

namespace Machine

/-- **Every key of every store that a run goes through comes from a name in the program.** -/
theorem exists_mem_defined (around : Surroundings) (program : Program) (n : Nat) :
    ∀ store ∈ (after around program n).1.stores, ∀ key ∈ store.keys,
      ∃ name ∈ program.defined, name.lower = key := by
  refine (after_induction (P := fun c => c.1.store.keys.Nodup ∧ Counting c.2 ∧
    ∀ store ∈ c.1.stores, ∀ key ∈ store.keys, ∃ name ∈ program.defined, name.lower = key)
    ⟨List.nodup_nil, ?_, ?_⟩ ?_ n).2.2
  · exact counting_cons_iff.mpr ⟨List.nil_subset _, List.forall_mem_nil _⟩
  · intro store hstore
    obtain rfl := List.mem_singleton.mp hstore
    exact List.forall_mem_nil _
  · rintro s f rest d ⟨hnodup, hcounting, hnames⟩ hturn
    have heffects := turn_effects hturn
    refine ⟨Exec.nodup_keys_of_effects heffects hnodup, hcounting.turn hturn, ?_⟩
    intro store hstore key hkey
    obtain ⟨old, hold, hkey⟩ | ⟨change, v, hchange, hdefines, rfl⟩ :=
      Exec.exists_defines_of_mem_stores heffects hnodup hstore hkey
    · exact hnames old hold key hkey
    · exact exists_mem_defined_of_introduces hcounting (introduces_of_defines hchange hdefines)

end Machine

end Pseudocode
