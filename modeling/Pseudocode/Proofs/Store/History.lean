import Mathlib.Data.List.Nodup
import Pseudocode.Proofs.Run.Parts

/-!
# The store as a map with a history

A store is a map from names to variables that does not tell apart names that differ only in case
and keeps the names in the order of their first definition. Two descriptions say so, neither of
which mentions how a variable is put into a list.

* `Store.Alters`: what one change does to the entries. A definition takes the place of the entry
  with the same key, as a whole, or is appended if there is none; the other changes give a new value
  to one entry that is there. A change succeeds exactly if there is such an alteration.
* `Store.Reflects log`: what the store says of all variables that were ever written, oldest first.
  The keys stand in the order of their first occurrence in the log, each once, and a name, however
  it is written, leads to the last variable written under its key.

The log is a function of the changes: `Store.history` gathers what each of them writes
(`Store.written`). Each change that succeeds adds one variable to the log and one notice to what the
observer has been told (`Exec.updates_reflect_history`).
-/

namespace Pseudocode

namespace Store

/-- The keys of the variables, in order. -/
def keys (s : Store) : List Text := s.entries.map Variable.key

/-- The variable that a definition defines. -/
inductive Defines : Change → Variable → Prop where
  | declare (name type : Text) :
      Defines (.declare name type) ⟨name, .named type, (VarType.named type).initial⟩
  | define (name : Text) (type : VarType) (value : Value) :
      Defines (.define name type value) ⟨name, type, value⟩
  | dimension (name : Text) {size : Nat} : (size : Int) < sizeLimit →
      Defines (.dimension name size) ⟨name, .array, .array (Array.replicate size 0)⟩

/-- What a change writes, and the store that it makes of a store. -/
inductive Alters (s : Store) : Change → Variable → Store → Prop where
  /-- A definition takes the place of an entry. -/
  | rebind {change : Change} {v w : Variable} {i : Nat} : Defines change v →
      s.entries[i]? = some w → w.key = v.key → Alters s change v ⟨s.entries.set i v⟩
  /-- A definition is appended. -/
  | append {change : Change} {v : Variable} : Defines change v → v.key ∉ s.keys →
      Alters s change v ⟨s.entries ++ [v]⟩
  /-- One entry gets another value. -/
  | set {name : Text} {w : Variable} {i : Nat} (value : Value) (hint : Bool) :
      s.entries[i]? = some w → w.key = name.lower →
      Alters s (.set name value hint) { w with value } ⟨s.entries.set i { w with value }⟩
  /-- One entry gets another array, which differs in one element. -/
  | setElement {name : Text} {w : Variable} {i k : Nat} {xs : Array Float} {x : Float}
      {index value : Value} : s.entries[i]? = some w → w.key = name.lower → w.value = .array xs →
      position w.name xs.size index = .ok k → elementValue w.name value = .ok x →
      Alters s (.setElement name index value) { w with value := .array (xs.setIfInBounds k x) }
        ⟨s.entries.set i { w with value := .array (xs.setIfInBounds k x) }⟩

/-- The variable that a change writes, as it is after the change. -/
def written (s : Store) : Change → Except Fault Variable
  | .declare name type => .ok ⟨name, .named type, (VarType.named type).initial⟩
  | .define name type value => .ok ⟨name, type, value⟩
  | .dimension name size => do
    let value ← zeros name size
    return ⟨name, .array, value⟩
  | .set name value hint => do
    let v ← s.lookup name hint
    return { v with value }
  | .setElement name index value => do
    let (v, xs) ← s.arrayOf name
    let i ← position v.name xs.size index
    let x ← elementValue v.name value
    return { v with value := .array (xs.setIfInBounds i x) }

/-- All that changes write one after the other, oldest first. A change that cannot be carried out
writes nothing. -/
def history (s : Store) : List Change → List Variable
  | [] => []
  | change :: rest =>
    match s.written change with
    | .ok v => v :: (s.define v).history rest
    | .error _ => s.history rest

/-- What a store keeps of the variables that were written, oldest first. -/
structure Reflects (s : Store) (log : List Variable) : Prop where
  nodup : s.keys.Nodup
  order : s.keys = (log.map Variable.key).eraseDups
  named : ∀ name v, s.get? name = some v → v.name.lower = name.lower
  latest : ∀ name, s.get? name = (log.filter (·.key == name.lower)).getLast?

/-! ### Putting a variable into a store -/

variable {s t : Store} {v w : Variable}

/-- The variable of a name has the name for a key, in small letters. -/
theorem key_of_get? {name : Text} (h : s.get? name = some v) : v.key = name.lower := by
  simpa using List.find?_some h

/-- A variable takes the place of an entry with its key, or comes last. -/
private theorem define_cases (s : Store) (v : Variable) :
    (∃ (i : Nat) (w : Variable), s.entries[i]? = some w ∧ w.key = v.key ∧
        s.define v = ⟨s.entries.set i v⟩) ∨
      (v.key ∉ s.keys ∧ s.define v = ⟨s.entries ++ [v]⟩) := by
  obtain ⟨entries⟩ := s
  simp only [define, keys, Store.mk.injEq]
  induction entries with
  | nil => exact .inr ⟨List.not_mem_nil, rfl⟩
  | cons w rest ih =>
    by_cases hkey : w.key = v.key
    · refine .inl ⟨0, w, rfl, hkey, ?_⟩
      rw [insert, if_pos (beq_iff_eq.mpr hkey), List.set_cons_zero]
    · rw [insert, if_neg (by simpa using hkey)]
      rcases ih with ⟨i, u, hu, hukey, hset⟩ | ⟨hmem, happend⟩
      · exact .inl ⟨i + 1, u, hu, hukey, by rw [hset, List.set_cons_succ]⟩
      · refine .inr ⟨?_, by rw [happend, List.cons_append]⟩
        rw [List.map_cons, List.mem_cons]
        exact not_or.mpr ⟨fun h => hkey h.symm, hmem⟩

private theorem getElem?_keys {i : Nat} (hi : s.entries[i]? = some w) :
    s.keys[i]? = some w.key := by
  rw [keys, List.getElem?_map, hi, Option.map_some]

/-- A variable in the place of one with the same key changes no key. -/
theorem keys_set {i : Nat} (hi : s.entries[i]? = some w) (hkey : w.key = v.key) :
    keys ⟨s.entries.set i v⟩ = s.keys := by
  obtain ⟨hlt, hget⟩ := List.getElem?_eq_some_iff.mp (hkey ▸ getElem?_keys hi)
  rw [keys, List.map_set, ← hget]
  exact List.set_getElem_self hlt

/-- Another value changes no key. -/
theorem keys_value {i : Nat} (hi : s.entries[i]? = some w) (value : Value) :
    keys ⟨s.entries.set i { w with value }⟩ = s.keys :=
  keys_set (v := { w with value }) hi rfl

/-- A variable at the end has its key at the end. -/
theorem keys_append (s : Store) (v : Variable) : keys ⟨s.entries ++ [v]⟩ = s.keys ++ [v.key] :=
  List.map_append

/-- The keys stay as they are, but for a new one at the end. -/
theorem keys_define (s : Store) (v : Variable) :
    (s.define v).keys = if v.key ∈ s.keys then s.keys else s.keys ++ [v.key] := by
  rcases define_cases s v with ⟨i, w, hw, hkey, hset⟩ | ⟨hmem, happend⟩
  · rw [if_pos (List.mem_of_getElem? (hkey ▸ getElem?_keys hw)), hset, keys_set hw hkey]
  · rw [if_neg hmem, happend, keys_append]

/-- Keys that differ still do when a variable is put in. -/
theorem nodup_define (h : s.keys.Nodup) (v : Variable) : (s.define v).keys.Nodup := by
  rw [keys_define]
  split
  · exact h
  · next hmem => exact List.nodup_append_comm.mp (List.nodup_cons.mpr ⟨hmem, h⟩)

/-- A name leads to the variable that was put in last under its key. -/
theorem get?_define (s : Store) (v : Variable) (name : Text) :
    (s.define v).get? name = if v.key = name.lower then some v else s.get? name := by
  obtain ⟨entries⟩ := s
  simp only [get?, define]
  induction entries with
  | nil => by_cases h : v.key = name.lower <;> simp [insert, h]
  | cons w rest ih =>
    by_cases hkey : w.key = v.key
    · rw [insert, if_pos (beq_iff_eq.mpr hkey)]
      by_cases h : v.key = name.lower
      · rw [if_pos h, List.find?_cons_of_pos (by simpa using h)]
      · rw [if_neg h, List.find?_cons_of_neg (by simpa using h),
          List.find?_cons_of_neg (by simpa [hkey] using h)]
    · rw [insert, if_neg (by simpa using hkey)]
      by_cases hw : w.key = name.lower
      · rw [List.find?_cons_of_pos (by simpa using hw), List.find?_cons_of_pos (by simpa using hw),
          if_neg fun h => hkey (hw.trans h.symm)]
      · rw [List.find?_cons_of_neg (by simpa using hw), List.find?_cons_of_neg (by simpa using hw),
          ih]

/-! ### Where keys differ -/

/-- A name leads to the one entry with its key. -/
private theorem get?_eq_some_iff (hs : s.keys.Nodup) {name : Text} :
    s.get? name = some v ↔ ∃ i : Nat, s.entries[i]? = some v ∧ v.key = name.lower := by
  constructor
  · intro h
    obtain ⟨i, hi⟩ := List.getElem?_of_mem (List.mem_of_find?_eq_some h)
    exact ⟨i, hi, key_of_get? h⟩
  · rintro ⟨i, hi, hkey⟩
    have hsome : (s.get? name).isSome = true :=
      List.find?_isSome.mpr ⟨v, List.mem_of_getElem? hi, by simpa using hkey⟩
    obtain ⟨w, hw⟩ := Option.isSome_iff_exists.mp hsome
    have hinj : w = v := List.inj_on_of_nodup_map hs (List.mem_of_find?_eq_some hw)
      (List.mem_of_getElem? hi) ((key_of_get? hw).trans hkey.symm)
    rw [hw, hinj]

/-- A variable takes the place of the one entry with its key. -/
private theorem define_eq_set (hs : s.keys.Nodup) {i : Nat} (hi : s.entries[i]? = some w)
    (hkey : w.key = v.key) : s.define v = ⟨s.entries.set i v⟩ := by
  have hi' : s.keys[i]? = some v.key := hkey ▸ getElem?_keys hi
  rcases define_cases s v with ⟨j, u, hj, hukey, hset⟩ | ⟨hmem, -⟩
  · have hj' : s.keys[j]? = some v.key := hukey ▸ getElem?_keys hj
    have hij : i = j := (List.getElem?_inj (List.getElem?_eq_some_iff.mp hi').1 hs).mp
      (hi'.trans hj'.symm)
    rw [hset, hij]
  · exact absurd (List.mem_of_getElem? hi') hmem

private theorem define_value (hs : s.keys.Nodup) {i : Nat} (hi : s.entries[i]? = some w)
    (value : Value) :
    s.define { w with value } = ⟨s.entries.set i { w with value }⟩ :=
  define_eq_set (v := { w with value }) hs hi rfl

/-- A variable with a new key comes last. -/
private theorem define_eq_append (h : v.key ∉ s.keys) : s.define v = ⟨s.entries ++ [v]⟩ := by
  rcases define_cases s v with ⟨i, w, hw, hkey, -⟩ | ⟨-, happend⟩
  · exact absurd (List.mem_of_getElem? (hkey ▸ getElem?_keys hw)) h
  · exact happend

/-! ### What a change does -/

/-- An array of zeros can have any size from zero up to the limit. -/
private theorem zeros_eq_ok_iff {name : Text} {size : Int} {value : Value} :
    zeros name size = .ok value ↔
      ∃ n : Nat, size = n ∧ (n : Int) < sizeLimit ∧ value = .array (Array.replicate n 0) := by
  rw [zeros]
  split
  · next hneg =>
    refine iff_of_false nofun ?_
    rintro ⟨n, rfl, -⟩
    omega
  · next hneg =>
    obtain ⟨n, rfl⟩ := Int.eq_ofNat_of_zero_le (Int.not_lt.mp hneg)
    split
    · next hlarge =>
      refine iff_of_false nofun ?_
      rintro ⟨m, hm, hlt, -⟩
      omega
    · next hsmall =>
      constructor
      · intro h
        exact ⟨n, rfl, Int.not_le.mp hsmall, (Except.ok.inj h).symm⟩
      · rintro ⟨m, hm, -, rfl⟩
        obtain rfl := Int.ofNat.inj hm
        rfl

/-- Definitions put in what they define. -/
private theorem apply_of_defines {change : Change} (h : Defines change v) :
    s.apply change = .ok (s.define v) := by
  cases h with
  | declare name type => rfl
  | define name type value => rfl
  | dimension name hsize => rw [apply, zeros_eq_ok_iff.mpr ⟨_, rfl, hsize, rfl⟩]; rfl

/-- Putting in what is defined is an alteration. -/
private theorem alters_of_defines {change : Change} (h : Defines change v) :
    s.Alters change v (s.define v) := by
  rcases define_cases s v with ⟨i, w, hw, hkey, hset⟩ | ⟨hmem, happend⟩
  · rw [hset]
    exact .rebind h hw hkey
  · rw [happend]
    exact .append h hmem

/-- **Carrying out a change is putting in what it writes.** -/
theorem apply_eq_map_written (s : Store) (change : Change) :
    s.apply change = (s.written change).map s.define := by
  cases change with
  | declare | define => rfl
  | dimension name size =>
    rw [apply, written]
    cases zeros name size <;> rfl
  | set name value hint =>
    rw [apply, written]
    cases s.lookup name hint <;> rfl
  | setElement name index value =>
    rw [apply, written]
    cases s.arrayOf name with
    | error fault => rfl
    | ok found =>
      cases hk : position found.1.name found.2.size index with
      | error fault => simp only [bind, Except.bind, hk, Except.map]
      | ok k =>
        cases hx : elementValue found.1.name value <;>
          simp only [bind, Except.bind, hk, hx, pure, Except.pure, Except.map]

/-- **A change that writes a variable alters the store**, by putting it in. -/
theorem alters_of_written (hs : s.keys.Nodup) {change : Change} (h : s.written change = .ok v) :
    s.Alters change v (s.define v) := by
  cases change with
  | declare name type =>
    obtain rfl := Except.ok.inj h
    exact alters_of_defines (.declare name type)
  | define name type value =>
    obtain rfl := Except.ok.inj h
    exact alters_of_defines (.define name type value)
  | dimension name size =>
    obtain ⟨value, hvalue, h⟩ := bind_eq_ok_iff.mp h
    obtain ⟨n, rfl, hsize, rfl⟩ := zeros_eq_ok_iff.mp hvalue
    obtain rfl := Except.ok.inj h
    exact alters_of_defines (.dimension name hsize)
  | set name value hint =>
    obtain ⟨w, hw, h⟩ := bind_eq_ok_iff.mp h
    obtain ⟨i, hi, hkey⟩ := (get?_eq_some_iff hs).mp (lookup_eq_ok_iff.mp hw)
    obtain rfl := Except.ok.inj h
    rw [define_value hs hi]
    exact .set value hint hi hkey
  | setElement name index value =>
    obtain ⟨⟨w, xs⟩, hw, h⟩ := bind_eq_ok_iff.mp h
    obtain ⟨k, hk, h⟩ := bind_eq_ok_iff.mp h
    obtain ⟨x, hx, h⟩ := bind_eq_ok_iff.mp h
    obtain ⟨hw, hxs⟩ := arrayOf_eq_ok_iff.mp hw
    obtain ⟨i, hi, hkey⟩ := (get?_eq_some_iff hs).mp hw
    obtain rfl := Except.ok.inj h
    rw [define_value hs hi]
    exact .setElement hi hkey hxs hk hx

/-- **A change that succeeds alters the store**, by putting in what it writes. -/
theorem exists_alters_of_apply (hs : s.keys.Nodup) {change : Change} (h : s.apply change = .ok t) :
    ∃ v, t = s.define v ∧ s.Alters change v t := by
  rw [apply_eq_map_written] at h
  cases hwritten : s.written change with
  | error fault =>
    rw [hwritten] at h
    cases h
  | ok v =>
    rw [hwritten] at h
    obtain rfl := Except.ok.inj h
    exact ⟨v, rfl, alters_of_written hs hwritten⟩

/-- **A change succeeds if there is an alteration for it**, and there is only one. -/
theorem Alters.apply_eq_ok (hs : s.keys.Nodup) {change : Change} (h : s.Alters change v t) :
    s.apply change = .ok t := by
  cases h with
  | rebind hdefines hi hkey => rw [apply_of_defines hdefines, define_eq_set hs hi hkey]
  | append hdefines hkey => rw [apply_of_defines hdefines, define_eq_append hkey]
  | set value hint hi hkey =>
    rw [apply_set ((get?_eq_some_iff hs).mpr ⟨_, hi, hkey⟩), define_value hs hi]
  | setElement hi hkey hxs hk hx =>
    have hget := arrayOf_eq_ok_iff.mpr ⟨(get?_eq_some_iff hs).mpr ⟨_, hi, hkey⟩, hxs⟩
    rw [apply, hget]
    simp only [bind, Except.bind, hk, hx]
    exact congrArg Except.ok (define_value hs hi _)

/-! ### What a store keeps of its history -/

/-- The empty store reflects that nothing was written. -/
private theorem reflects_empty : empty.Reflects [] where
  nodup := List.nodup_nil
  order := rfl
  named := nofun
  latest _ := rfl

/-- **What is put in last is added to the log.** -/
theorem Reflects.define {log : List Variable} (h : s.Reflects log) (v : Variable) :
    (s.define v).Reflects (log ++ [v]) where
  nodup := nodup_define h.nodup v
  order := by
    rw [keys_define, List.map_append, List.eraseDups_append, ← h.order]
    have hmem : v.key ∈ s.keys ↔ ∃ w ∈ log, w.key = v.key := by
      rw [h.order, List.mem_eraseDups, List.mem_map]
    -- a key that is there already keeps its place, and a new one comes last
    by_cases hv : v.key ∈ s.keys
    · simp [List.removeAll, hv, hmem.mp hv]
    · simp [List.removeAll, List.eraseDups_cons, hv, mt hmem.mpr hv]
  named name w hw := key_of_get? hw
  latest name := by
    rw [get?_define, List.filter_append, List.getLast?_append, ← h.latest]
    by_cases hv : v.key = name.lower <;> simp [hv]

end Store

namespace Exec

open Store (Reflects Alters)

/-- Carries out changes one after the other, each on what the one before has left, also if that one
could not be carried out. -/
def updates (around : Surroundings) (changes : List Change) (s : RunState) : RunState :=
  changes.foldl (fun s change => ((update change).run around s).2) s

/-- A change that writes nothing is a fault, and nothing has happened. -/
private theorem run_update_of_written_error {around : Surroundings} {s : RunState} {change : Change}
    {fault : Fault} (h : s.store.written change = .error fault) :
    (update change).run around s = (.error fault, s) := by
  refine run_update_of_error ?_
  rw [Store.apply_eq_map_written, h]
  rfl

section Observed

variable {around : Surroundings} {cancels : Nat → Bool}
  (hobserver : around.notices = some fun i => ⟨cancels i, none⟩)

include hobserver

/-- What a change writes is put in and told. -/
private theorem run_update_of_written {s : RunState} {change : Change} {v : Variable}
    (h : s.store.written change = .ok v) :
    (update change).run around s = (.ok (), { s with
      store := s.store.define v
      snapshots := s.snapshots.push (s.store.define v)
      cancelled := s.cancelled || cancels s.snapshots.size }) := by
  have happly : s.store.apply change = .ok (s.store.define v) := by
    rw [Store.apply_eq_map_written, h]
    rfl
  simp only [run_update, happly, run_notify, hobserver]

/-- **Any number of changes adds to the log what they write**, and as much to what the observer was
told. -/
theorem reflects_updates (changes : List Change) {s : RunState} {log : List Variable}
    (hlog : s.store.Reflects log) (hsize : s.snapshots.size = log.length) :
    (updates around changes s).store.Reflects (log ++ s.store.history changes) ∧
      (updates around changes s).snapshots.size = (log ++ s.store.history changes).length := by
  -- the log is general, since every change that is carried out adds to it
  induction changes generalizing s log with
  | nil => simpa [Store.history, updates] using ⟨hlog, hsize⟩
  | cons change rest ih =>
    rw [updates, List.foldl_cons, Store.history]
    cases hwritten : s.store.written change with
    | error fault =>
      rw [run_update_of_written_error hwritten]
      exact ih hlog hsize
    | ok v =>
      rw [run_update_of_written hobserver hwritten, List.append_cons]
      exact ih (hlog.define v) (by simp [hsize])

/-- One more change writes what it writes to the store that the changes before it have left. -/
private theorem history_concat (changes : List Change) (change : Change) (s : RunState) :
    s.store.history (changes ++ [change]) =
      s.store.history changes ++ (updates around changes s).store.history [change] := by
  induction changes generalizing s with
  | nil => rfl
  | cons first rest ih =>
    have hrest := ih ((update first).run around s).2
    rw [List.cons_append, Store.history, Store.history, updates, List.foldl_cons]
    cases hwritten : s.store.written first with
    | error fault =>
      rw [run_update_of_written_error hwritten] at hrest ⊢
      exact hrest
    | ok v =>
      rw [run_update_of_written hobserver hwritten] at hrest ⊢
      exact congrArg (v :: ·) hrest

end Observed

/-- **The store is a map that keeps its history.** From the empty store, with an observer that never
objects, any sequence of changes leads to a store that reflects the history of the changes, the
variables written so far, and the observer was told as often as there are such. A further change
that fails changes nothing, the history included, the observer is not told, and there is no
alteration of the store for it. One that succeeds alters the store, adds what it writes to the
history, and the observer is told once, of the store as it is then. The store with a list of
notices, on its own, takes the same changes in the same way. -/
theorem updates_reflect_history (around : Surroundings) (cancels : Nat → Bool) (start : RunState)
    (changes : List Change) :
    let observed : Surroundings := { around with notices := some fun i => ⟨cancels i, none⟩ }
    let s := updates observed changes { start with store := .empty, snapshots := #[] }
    let log := Store.history .empty changes
    s.store.Reflects log ∧ s.snapshots.size = log.length ∧
      ∀ change : Change,
        (∀ fault s', (update change).run observed s = (.error fault, s') →
          s' = s ∧ Store.history .empty (changes ++ [change]) = log ∧
            ∀ v t, ¬ s.store.Alters change v t) ∧
        (∀ s', (update change).run observed s = (.ok (), s') →
          s'.snapshots = s.snapshots.push s'.store ∧
            ∃ v, s.store.Alters change v s'.store ∧
              Store.history .empty (changes ++ [change]) = log ++ [v] ∧
              s'.store.Reflects (log ++ [v])) ∧
        ∀ notices o, Observed.apply ⟨s.store, notices⟩ change = .ok o ↔
          ∃ s', (update change).run observed s = (.ok (), s') ∧
            o = ⟨s'.store, s'.store :: notices⟩ := by
  intro observed s log
  have hobserver : observed.notices = some fun i => ⟨cancels i, none⟩ := rfl
  obtain ⟨hlog, hsize⟩ := reflects_updates hobserver changes
    (s := { start with store := .empty, snapshots := #[] }) Store.reflects_empty rfl
  refine ⟨hlog, hsize, fun change => ?_⟩
  have hnext : Store.history .empty (changes ++ [change]) = log ++ s.store.history [change] :=
    history_concat hobserver changes change { start with store := .empty, snapshots := #[] }
  have happly := Store.apply_eq_map_written s.store change
  rw [Store.history] at hnext
  cases hwritten : s.store.written change with
  | error fault =>
    rw [hwritten] at happly hnext
    rw [run_update_of_written_error hwritten]
    refine ⟨?_, nofun, fun notices o => ?_⟩
    · rintro _ _ ⟨⟩
      refine ⟨rfl, hnext.trans (List.append_nil _), fun v t h => ?_⟩
      cases happly.symm.trans (h.apply_eq_ok hlog.nodup)
    · rw [Observed.apply, happly]
      exact iff_of_false nofun (by rintro ⟨_, ⟨⟩, -⟩)
  | ok v =>
    rw [hwritten] at happly hnext
    rw [run_update_of_written hobserver hwritten]
    refine ⟨nofun, ?_, fun notices o => ?_⟩
    · rintro _ ⟨⟩
      exact ⟨rfl, v, Store.alters_of_written hlog.nodup hwritten, hnext, hlog.define v⟩
    · rw [Observed.apply, happly]
      constructor
      · intro h
        exact ⟨_, rfl, (Except.ok.inj h).symm⟩
      · rintro ⟨_, ⟨⟩, rfl⟩
        rfl

end Exec

end Pseudocode
