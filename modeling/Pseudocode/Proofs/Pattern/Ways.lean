import Pseudocode.Pattern
import Pseudocode.Proofs.Text.Keyword

/-!
# The ways in which a pattern matches

A pattern gives the list of all its ways to match, the preferred way first. Two questions are asked
of that list.

* **Which ways are there at all?** Membership says so, one lemma for each building block: a way of
  a sequence is a way of its first part followed by a way of the second, a run of characters of a
  class may stop anywhere, a keyword takes the characters that stand for it. This is how one shows
  that a pattern does *not* match.
* **Which way comes first?** `Finds p c a d` says that the first way of `p` at the cursor `c` finds
  `a` and leads to `d`. It is put together along the sequence; where a run is to be as short as
  possible, the shorter runs have to fail (`Finds.few`).
-/

namespace Pseudocode

namespace Pattern

variable {α β γ : Type}

/-! ### Sequences -/

instance : LawfulMonad Pattern :=
  LawfulMonad.mk' Pattern
    (fun p => funext fun c => List.flatMap_singleton' (p c))
    (fun a q => funext fun c => List.flatMap_singleton _ _)
    (fun p q r => funext fun c => List.flatMap_assoc)

/-- A way of a sequence is a way of its first part followed by a way of the second. -/
theorem mem_bind {p : Pattern α} {q : α → Pattern β} {c : Cursor} {x : β × Cursor} :
    x ∈ (p >>= q) c ↔ ∃ y ∈ p c, x ∈ q y.1 y.2 :=
  List.mem_flatMap

/-- A sequence has no way exactly if its second part has none behind any way of the first. -/
theorem bind_eq_nil_iff {p : Pattern α} {q : α → Pattern β} {c : Cursor} :
    (p >>= q) c = [] ↔ ∀ y ∈ p c, q y.1 y.2 = [] :=
  List.flatMap_eq_nil_iff

/-- The one way of a value takes nothing from the text. -/
theorem mem_pure {a : α} {c : Cursor} {x : α × Cursor} :
    x ∈ (pure a : Pattern α) c ↔ x = (a, c) :=
  List.mem_singleton

/-- Something that is matched or not: the ways in which it is come first. -/
theorem optional_bind (p : Pattern α) (q : Option α → Pattern β) (c : Cursor) :
    (optional p >>= q) c = (p >>= fun a => q (some a)) c ++ q none c := by
  change List.flatMap _ (_ ++ _) = List.flatMap _ _ ++ _
  rw [List.flatMap_append, List.flatMap_map, List.flatMap_singleton]

/-- A pattern fits exactly if it has a way. -/
theorem fits_iff {p : Pattern α} {t : Text} : p.fits t = true ↔ ∃ x, x ∈ p (.start t) := by
  rw [fits, find?, Option.isSome_map]
  cases p (.start t) <;> simp

/-- Nothing is found exactly if there is no way. -/
theorem find?_eq_none_iff {p : Pattern α} {t : Text} : p.find? t = none ↔ p (.start t) = [] := by
  rw [find?, Option.map_eq_none_iff, List.head?_eq_none_iff]

/-- What is found is found along a way. -/
theorem exists_mem_of_find? {p : Pattern α} {t : Text} {found : α} (h : p.find? t = some found) :
    ∃ x ∈ p (.start t), x.1 = found := by
  obtain ⟨x, hx, hfound⟩ := Option.map_eq_some_iff.mp h
  exact ⟨x, List.mem_of_mem_head? hx, hfound⟩

/-- Nothing is found at the end of a text. -/
theorem findAllFrom_nil {p : Pattern α} {before : Option Char} (h : p ⟨before, []⟩ = [])
    (steps : Nat) : p.findAllFrom steps ⟨before, []⟩ = [] := by
  cases steps with
  | zero => rfl
  | succ steps => rw [findAllFrom, h, List.head?_nil]

/-! ### Runs of characters -/

/-- A run of characters of a class does not go on over one that is not of it. -/
theorem exists_of_append_eq {inClass : Char → Bool} {a b n rest : Text} {k : Char}
    (h : n ++ b = a ++ k :: rest)
    (hn : ∀ x ∈ n, inClass x = true) (hk : inClass k = false) :
    ∃ a', a = n ++ a' ∧ b = a' ++ k :: rest := by
  rcases List.append_eq_append_iff.mp h with ⟨a', ha, hb⟩ | ⟨more, hmore, hb⟩
  · exact ⟨a', ha, hb⟩
  · cases more with
    | nil => exact ⟨[], by rw [hmore, List.append_nil, List.append_nil], hb.symm⟩
    | cons l more =>
      obtain ⟨rfl, -⟩ := List.cons.inj hb
      rw [hn k (by rw [hmore]; simp)] at hk
      cases hk

/-- The cursor behind a part of the text at hand. -/
private theorem past_cons (b : Char) (a rest : Text) (c : Cursor) :
    c.past (b :: a) rest = Cursor.past a ⟨some b, a ++ rest⟩ rest := by
  simp only [Cursor.past, List.getLast?_cons]
  cases a.getLast? <;> rfl

private theorem mem_reaches {inClass : Char → Bool} {t : Text} {passed : Nat} {before : Option Char}
    {x : Nat × Cursor} :
    x ∈ reaches inClass passed before t ↔ ∃ a b, t = a ++ b ∧ (∀ k ∈ a, inClass k = true) ∧
      x = (passed + a.length, ⟨a.getLast?.or before, b⟩) := by
  induction t generalizing passed before with
  | nil =>
    simp only [reaches, List.mem_singleton]
    refine ⟨fun h => ⟨[], [], rfl, by simp, h⟩, ?_⟩
    rintro ⟨a, b, hab, -, rfl⟩
    obtain ⟨rfl, rfl⟩ := List.append_eq_nil_iff.mp hab.symm
    rfl
  | cons k t ih =>
    rw [reaches, List.mem_cons]
    constructor
    · rintro (rfl | h)
      · exact ⟨[], k :: t, rfl, by simp, rfl⟩
      · split at h
        · next hk =>
          obtain ⟨a, b, rfl, ha, rfl⟩ := ih.mp h
          refine ⟨k :: a, b, rfl, by simpa [hk] using ha, ?_⟩
          rw [List.length_cons, List.getLast?_cons, Nat.add_right_comm, Nat.add_assoc]
          cases a.getLast? <;> rfl
        · cases h
    · rintro ⟨a, b, hab, ha, rfl⟩
      cases a with
      | nil => exact .inl (by rw [List.nil_append] at hab; rw [hab]; rfl)
      | cons l a =>
        obtain ⟨rfl, rfl⟩ := List.cons.inj hab
        rw [if_pos (ha k List.mem_cons_self)]
        refine .inr (ih.mpr ⟨a, b, rfl, fun m hm => ha m (List.mem_cons_of_mem _ hm), ?_⟩)
        rw [List.length_cons, List.getLast?_cons, Nat.add_right_comm, Nat.add_assoc]
        cases a.getLast? <;> rfl

private theorem mem_pieces {inClass : Char → Bool} {c : Cursor} {x : Piece × Cursor} :
    x ∈ pieces inClass c ↔ ∃ a b, c.rest = a ++ b ∧ (∀ k ∈ a, inClass k = true) ∧
      x = (⟨c.rest, a.length⟩, c.past a b) := by
  rw [pieces, List.mem_map]
  constructor
  · rintro ⟨y, hy, rfl⟩
    obtain ⟨a, b, hab, ha, rfl⟩ := mem_reaches.mp hy
    exact ⟨a, b, hab, ha, by rw [Nat.zero_add]; rfl⟩
  · rintro ⟨a, b, hab, ha, rfl⟩
    exact ⟨_, mem_reaches.mpr ⟨a, b, hab, ha, rfl⟩, by rw [Nat.zero_add]; rfl⟩

/-- The runs that take something in. -/
private theorem pieces_drop_one (inClass : Char → Bool) (c : Cursor) :
    (pieces inClass c).drop 1 =
      match c.rest with
      | [] => []
      | k :: rest => if inClass k then
          (reaches inClass 1 (some k) rest).map fun (n, d) => (⟨c.rest, n⟩, d)
        else [] := by
  obtain ⟨before, _ | ⟨k, rest⟩⟩ := c
  · rfl
  · simp only [pieces, reaches]
    cases inClass k <;> rfl

/-- The ways of a run that is as short as possible: each front of the text in the class that is not
empty. -/
theorem mem_few {inClass : Char → Bool} {c : Cursor} {x : Piece × Cursor} :
    x ∈ few inClass c ↔ ∃ a b, a ≠ [] ∧ c.rest = a ++ b ∧ (∀ k ∈ a, inClass k = true) ∧
      x = (⟨c.rest, a.length⟩, c.past a b) := by
  rw [few, pieces_drop_one]
  obtain ⟨before, _ | ⟨k, rest⟩⟩ := c
  · refine ⟨nofun, ?_⟩
    rintro ⟨a, b, hne, hab, -⟩
    exact absurd (List.append_eq_nil_iff.mp hab.symm).1 hne
  · dsimp only
    split
    · next hk =>
      rw [List.mem_map]
      constructor
      · rintro ⟨y, hy, rfl⟩
        obtain ⟨a, b, rfl, ha, rfl⟩ := mem_reaches.mp hy
        refine ⟨k :: a, b, List.cons_ne_nil _ _, rfl, by simpa [hk] using ha, ?_⟩
        rw [past_cons, List.length_cons, Nat.add_comm 1]
        rfl
      · rintro ⟨_ | ⟨l, a⟩, b, hne, hab, ha, rfl⟩
        · exact absurd rfl hne
        · obtain ⟨rfl, rfl⟩ := List.cons.inj hab
          refine ⟨_,
            mem_reaches.mpr ⟨a, b, rfl, fun m hm => ha m (List.mem_cons_of_mem _ hm), rfl⟩, ?_⟩
          rw [past_cons, List.length_cons, Nat.add_comm 1]
          rfl
    · next hk =>
      refine ⟨nofun, ?_⟩
      rintro ⟨_ | ⟨l, a⟩, b, hne, hab, ha, -⟩
      · exact absurd rfl hne
      · obtain ⟨rfl, -⟩ := List.cons.inj hab
        exact absurd (ha k List.mem_cons_self) hk

/-- The ways of a run that is as long as possible are the same, in another order. -/
theorem mem_run {inClass : Char → Bool} {c : Cursor} {x : Piece × Cursor} :
    x ∈ run inClass c ↔ ∃ a b, a ≠ [] ∧ c.rest = a ++ b ∧ (∀ k ∈ a, inClass k = true) ∧
      x = (⟨c.rest, a.length⟩, c.past a b) := by
  rw [run, List.mem_reverse]
  exact mem_few

/-- A run that may be missing can also be empty. -/
theorem mem_runOrNone {inClass : Char → Bool} {c : Cursor} {x : Piece × Cursor} :
    x ∈ runOrNone inClass c ↔ ∃ a b, c.rest = a ++ b ∧ (∀ k ∈ a, inClass k = true) ∧
      x = (⟨c.rest, a.length⟩, c.past a b) := by
  rw [runOrNone, List.mem_reverse, mem_pieces]

/-- Blanks are a front of the text that is not empty and all blank. -/
theorem mem_blanks {c : Cursor} {x : Unit × Cursor} :
    x ∈ blanks c ↔ ∃ a b, a ≠ [] ∧ c.rest = a ++ b ∧ (∀ k ∈ a, Text.isBlank k = true) ∧
      x = ((), c.past a b) := by
  rw [blanks, mem_bind]
  constructor
  · rintro ⟨y, hy, hx⟩
    obtain ⟨a, b, hne, hab, ha, rfl⟩ := mem_run.mp hy
    exact ⟨a, b, hne, hab, ha, mem_pure.mp hx⟩
  · rintro ⟨a, b, hne, hab, ha, rfl⟩
    exact ⟨_, mem_run.mpr ⟨a, b, hne, hab, ha, rfl⟩, mem_pure.mpr rfl⟩

private theorem mem_someBlanks {c : Cursor} {x : Unit × Cursor} (h : x ∈ someBlanks c) :
    ∃ bl b, c.rest = bl ++ b ∧ (∀ k ∈ bl, Text.isBlank k = true) ∧ x.2.rest = b := by
  obtain ⟨y, hy, hx⟩ := mem_bind.mp h
  obtain ⟨bl, b, hrest, hbl, rfl⟩ := mem_runOrNone.mp hy
  rw [mem_pure.mp hx]
  exact ⟨bl, b, hrest, hbl, rfl⟩

/-- Nothing is passed over where there is no blank. -/
theorem rest_of_mem_someBlanks {c : Cursor} {x : Unit × Cursor} (h : x ∈ someBlanks c)
    (hc : ∀ k ∈ c.rest.head?, Text.isBlank k = false) : x.2.rest = c.rest := by
  obtain ⟨bl, b, hrest, hbl, hx⟩ := mem_someBlanks h
  cases bl with
  | nil => rw [hx, hrest, List.nil_append]
  | cons k bl =>
    have hnone := hc k (by rw [hrest]; rfl)
    rw [hbl k List.mem_cons_self] at hnone
    cases hnone

/-! ### Keywords, signs and edges -/

/-- A keyword splits the text into a spelling of its word and the rest. -/
theorem keyword?_eq_some_iff {word t a b : Text} :
    keyword? word t = some (a, b) ↔ t = a ++ b ∧ a.map Text.foldKeyword = word := by
  induction word generalizing t a b with
  | nil =>
    simp only [keyword?, Option.some.injEq, Prod.mk.injEq, List.map_eq_nil_iff]
    exact ⟨fun ⟨ha, hb⟩ => ⟨by rw [← ha, hb]; rfl, ha.symm⟩,
      fun ⟨ht, ha⟩ => ⟨ha.symm, by rw [ht, ha]; rfl⟩⟩
  | cons k word ih =>
    cases t with
    | nil =>
      refine ⟨nofun, ?_⟩
      rintro ⟨ht, ha⟩
      rw [(List.append_eq_nil_iff.mp ht.symm).1] at ha
      cases ha
    | cons c t =>
      rw [keyword?]
      constructor
      · intro h
        split at h
        · next hc =>
          obtain ⟨⟨a', b'⟩, hrest, heq⟩ := Option.map_eq_some_iff.mp h
          obtain ⟨rfl, rfl⟩ := Prod.mk.inj heq
          obtain ⟨rfl, ha⟩ := ih.mp hrest
          exact ⟨rfl, by rw [List.map_cons, hc, ha]⟩
        · cases h
      · rintro ⟨ht, ha⟩
        cases a with
        | nil => cases ha
        | cons c' a =>
          obtain ⟨rfl, hrest⟩ := List.cons.inj ht
          obtain ⟨hc, ha⟩ := List.cons.inj ha
          rw [if_pos hc, ih.mpr ⟨hrest, ha⟩]
          rfl

/-- A keyword matches in one way at most. -/
private theorem keyword_append {word : String} {a b : Text} {before : Option Char}
    (h : a.map Text.foldKeyword = word.toList) :
    keyword word ⟨before, a ++ b⟩ = [((), Cursor.past a ⟨before, a ++ b⟩ b)] := by
  rw [keyword, keyword?_eq_some_iff.mpr ⟨rfl, h⟩]

/-- The one way of a keyword is behind a spelling of its word. -/
theorem mem_keyword {word : String} {c : Cursor} {x : Unit × Cursor} :
    x ∈ keyword word c ↔ ∃ a b, c.rest = a ++ b ∧ a.map Text.foldKeyword = word.toList ∧
      x = ((), c.past a b) := by
  rw [keyword]
  constructor
  · intro h
    split at h
    · next a b hk =>
      obtain ⟨hab, ha⟩ := keyword?_eq_some_iff.mp hk
      exact ⟨a, b, hab, ha, List.mem_singleton.mp h⟩
    · cases h
  · rintro ⟨a, b, hab, ha, rfl⟩
    rw [keyword?_eq_some_iff.mpr ⟨hab, ha⟩]
    exact List.mem_singleton.mpr rfl

/-- The way of signs is behind these very characters. -/
theorem mem_signs {s : String} {c : Cursor} {x : Unit × Cursor} (h : x ∈ signs s c) :
    ∃ b, c.rest = s.toList ++ b ∧ x.2.rest = b := by
  rw [signs] at h
  split at h
  · next hprefix =>
    obtain ⟨b, hb⟩ := List.isPrefixOf_iff_prefix.mp hprefix
    obtain rfl := List.mem_singleton.mp h
    refine ⟨b, hb.symm, ?_⟩
    change c.rest.drop s.length = b
    rw [← hb, ← String.length_toList, List.drop_left]
  · cases h

/-- An edge of a word is where just one of the characters around it belongs to a word. -/
theorem mem_edge {c : Cursor} {x : Unit × Cursor} :
    x ∈ edge c ↔ c.before.any Text.isWordChar ≠ c.rest.head?.any Text.isWordChar ∧ x = ((), c) := by
  rw [edge]
  split
  · next h => simpa using fun _ => bne_iff_ne.mp h
  · next h => simpa using fun hne => absurd (bne_iff_ne.mpr hne) h

/-- The end of the text is where nothing is left. -/
theorem mem_finish {c : Cursor} {x : Unit × Cursor} :
    x ∈ finish c ↔ c.rest = [] ∧ x = ((), c) := by
  rw [finish]
  split
  · next h => simpa using fun _ => List.isEmpty_iff.mp h
  · next h => simpa using fun hnil => absurd (List.isEmpty_iff.mpr hnil) h

/-! ### The first way -/

/-- The first way of a pattern at a cursor finds `a` and leads to the cursor `d`. -/
def Finds (p : Pattern α) (c : Cursor) (a : α) (d : Cursor) : Prop := (p c).head? = some (a, d)

/-- What the first way finds is what is found. -/
theorem Finds.find? {p : Pattern α} {t : Text} {a : α} {d : Cursor}
    (h : Finds p (.start t) a d) : p.find? t = some a := by
  rw [Pattern.find?, h]
  rfl

/-- The first way of a value finds the value. -/
theorem finds_pure {a b : α} (h : a = b) (c : Cursor) : Finds (pure a : Pattern α) c b c :=
  congrArg (fun a => some (a, c)) h

/-- The first way of a sequence is the first way of its second part, behind the first way of the
first. -/
theorem Finds.bind {p : Pattern α} {q : α → Pattern β} {c d e : Cursor} {a : α} {b : β}
    (hp : Finds p c a d) (hq : Finds (q a) d b e) : Finds (p >>= q) c b e := by
  obtain ⟨ways, hways⟩ := List.head?_eq_some_iff.mp hp
  change (List.flatMap _ (p c)).head? = _
  rw [hways, List.flatMap_cons, List.head?_append]
  change ((q a d).head?.or _) = _
  rw [show (q a d).head? = _ from hq, Option.some_or]

/-- The first way of the first alternative comes first. -/
theorem Finds.either {p q : Pattern α} {c d : Cursor} {a : α} (h : Finds p c a d) :
    Finds (either p q) c a d := by
  rw [Finds, Pattern.either, List.head?_append, show (p c).head? = _ from h, Option.some_or]

/-- What may be there is there. -/
theorem Finds.optional {p : Pattern α} {q : Option α → Pattern β} {c d : Cursor} {b : β}
    (h : Finds (p >>= fun a => q (some a)) c b d) : Finds (optional p >>= q) c b d := by
  rw [Finds, optional_bind, List.head?_append, show ((p >>= _) c).head? = _ from h, Option.some_or]

/-- What may be there cannot be. -/
theorem Finds.optional_none {p : Pattern α} {q : Option α → Pattern β} {c d : Cursor} {b : β}
    (hp : (p >>= fun a => q (some a)) c = []) (hq : Finds (q none) c b d) :
    Finds (Pattern.optional p >>= q) c b d := by
  rw [Finds, optional_bind, hp]
  exact hq

/-- A keyword is found in front of anything. -/
theorem finds_keyword {word : String} {a b : Text} {before : Option Char}
    (h : a.map Text.foldKeyword = word.toList) :
    Finds (keyword word) ⟨before, a ++ b⟩ () (Cursor.past a ⟨before, a ++ b⟩ b) := by
  rw [Finds, keyword_append h]
  rfl

/-- The first of the places that can be reached at which something is found, if nothing is found
before the end of `t`. -/
private theorem head?_flatMap_reaches {g : Nat × Cursor → List γ} {u : Text} {x : γ} (t : Text)
    (passed : Nat) (before : Option Char)
    (hearly : ∀ a b, t = a ++ b → b ≠ [] →
      g (passed + a.length, ⟨a.getLast?.or before, b ++ u⟩) = [])
    (hnow : (g (passed + t.length, ⟨t.getLast?.or before, u⟩)).head? = some x) :
    ((reaches anything passed before (t ++ u)).flatMap g).head? = some x := by
  induction t generalizing passed before with
  | nil =>
    have hfirst : ∃ more, reaches anything passed before u = (passed, ⟨before, u⟩) :: more := by
      cases u <;> exact ⟨_, rfl⟩
    obtain ⟨more, hmore⟩ := hfirst
    rw [List.length_nil, Nat.add_zero, List.getLast?_nil, Option.none_or] at hnow
    rw [List.nil_append, hmore, List.flatMap_cons, List.head?_append, hnow, Option.some_or]
  | cons k t ih =>
    -- nothing is found here, so the first place at which something is found lies further on
    have hhere := hearly [] (k :: t) rfl (List.cons_ne_nil _ _)
    rw [List.length_nil, Nat.add_zero, List.getLast?_nil, Option.none_or] at hhere
    rw [List.cons_append, reaches, anything, if_pos rfl, List.flatMap_cons, ← List.cons_append,
      hhere, List.nil_append]
    refine ih (passed + 1) (some k) (fun a b hab hb => ?_) ?_
    · have hlater := hearly (k :: a) b (by rw [hab]; rfl) hb
      rw [List.length_cons, List.getLast?_cons, ← Nat.add_assoc, Nat.add_right_comm] at hlater
      cases hlast : a.getLast? <;> rw [hlast] at hlater <;> exact hlater
    · rw [List.length_cons, List.getLast?_cons, ← Nat.add_assoc, Nat.add_right_comm] at hnow
      cases hlast : t.getLast? <;> rw [hlast] at hnow <;> exact hnow

/-- **A run that is as short as possible.** The run up to the end of `t` counts if what follows
matches there and at no place before. -/
theorem Finds.few {q : Piece → Pattern β} {c d : Cursor} {t u : Text} {b : β}
    (hrest : c.rest = t ++ u) (ht : t ≠ [])
    (hearly : ∀ a b, t = a ++ b → a ≠ [] → b ≠ [] →
      q ⟨c.rest, a.length⟩ (c.past a (b ++ u)) = [])
    (hnow : Finds (q ⟨c.rest, t.length⟩) (c.past t u) b d) :
    Finds (few anything >>= q) c b d := by
  cases t with
  | nil => exact absurd rfl ht
  | cons k t =>
    change (List.flatMap _ ((pieces anything c).drop 1)).head? = _
    rw [pieces_drop_one, hrest]
    change (List.flatMap _ (List.map _ (reaches anything 1 (some k) (t ++ u)))).head? = _
    rw [List.flatMap_map]
    refine head?_flatMap_reaches t 1 (some k) (fun a b hab hb => ?_) ?_
    · have hlater := hearly (k :: a) b (by rw [hab]; rfl) (List.cons_ne_nil _ _) hb
      rw [hrest, past_cons, List.length_cons, Nat.add_comm] at hlater
      exact hlater
    · rw [hrest, past_cons, List.length_cons, Nat.add_comm] at hnow
      exact hnow

/-- The furthest place that can be reached. -/
private theorem getLast?_reaches {inClass : Char → Bool} {a b : Text} (passed : Nat)
    (before : Option Char) (ha : ∀ k ∈ a, inClass k = true)
    (hb : ∀ k ∈ b.head?, inClass k = false) :
    (reaches inClass passed before (a ++ b)).getLast? =
      some (passed + a.length, ⟨a.getLast?.or before, b⟩) := by
  induction a generalizing passed before with
  | nil =>
    cases b with
    | nil => rfl
    | cons k b => rw [List.nil_append, reaches, hb k rfl]; rfl
  | cons k a ih =>
    have later := ih (passed + 1) (some k) fun m hm => ha m (List.mem_cons_of_mem _ hm)
    rw [List.cons_append, reaches, if_pos (ha k List.mem_cons_self), List.getLast?_cons, later,
      List.length_cons, List.getLast?_cons, Nat.add_right_comm, Nat.add_assoc]
    cases a.getLast? <;> rfl

/-- **A run that is as long as possible.** -/
theorem finds_run {inClass : Char → Bool} {c : Cursor} {a b : Text} (hrest : c.rest = a ++ b)
    (hne : a ≠ []) (ha : ∀ k ∈ a, inClass k = true) (hb : ∀ k ∈ b.head?, inClass k = false) :
    Finds (run inClass) c ⟨c.rest, a.length⟩ (c.past a b) := by
  cases a with
  | nil => exact absurd rfl hne
  | cons k a =>
    rw [Finds, run, List.head?_reverse, pieces_drop_one, hrest]
    change List.getLast? (if inClass k then _ else _) = _
    rw [if_pos (ha k List.mem_cons_self), List.getLast?_map]
    change Option.map _ (reaches inClass 1 (some k) (a ++ b)).getLast? = _
    rw [getLast?_reaches 1 (some k) (fun m hm => ha m (List.mem_cons_of_mem _ hm)) hb, past_cons,
      List.length_cons, Nat.add_comm]
    rfl

private theorem finds_runOrNone {inClass : Char → Bool} {c : Cursor} {a b : Text}
    (hrest : c.rest = a ++ b)
    (ha : ∀ k ∈ a, inClass k = true) (hb : ∀ k ∈ b.head?, inClass k = false) :
    Finds (runOrNone inClass) c ⟨c.rest, a.length⟩ (c.past a b) := by
  rw [Finds, runOrNone, List.head?_reverse, pieces, hrest, List.getLast?_map,
    getLast?_reaches 0 c.before ha hb, Nat.zero_add]
  rfl

/-- A single blank is all that is taken of it. -/
theorem finds_blanks {before : Option Char} {b : Text}
    (hb : ∀ k ∈ b.head?, Text.isBlank k = false) :
    Finds blanks ⟨before, ' ' :: b⟩ () ⟨some ' ', b⟩ :=
  (finds_run (a := [' ']) (b := b) rfl (List.cons_ne_nil _ _)
    (fun _ hk => List.mem_singleton.mp hk ▸ rfl) hb).bind (finds_pure rfl _)

/-- One blank is found if no further one is behind it. -/
theorem finds_someBlanks {before : Option Char} {b : Text}
    (hb : ∀ k ∈ b.head?, Text.isBlank k = false) :
    Finds someBlanks ⟨before, ' ' :: b⟩ () ⟨some ' ', b⟩ :=
  (finds_runOrNone (a := [' ']) (b := b) rfl (fun _ hk => List.mem_singleton.mp hk ▸ rfl) hb).bind
    (finds_pure rfl _)

/-- No blank is found where there is none. -/
theorem finds_someBlanks_of_none {before : Option Char} {b : Text}
    (hb : ∀ k ∈ b.head?, Text.isBlank k = false) :
    Finds someBlanks ⟨before, b⟩ () ⟨before, b⟩ :=
  (finds_runOrNone (a := []) (b := b) rfl (List.forall_mem_nil _) hb).bind (finds_pure rfl _)

/-- Blanks are all passed over. -/
theorem finds_someBlanks_append {before : Option Char} {bl b : Text}
    (hbl : ∀ k ∈ bl, Text.isBlank k = true) (hb : ∀ k ∈ b.head?, Text.isBlank k = false) :
    Finds someBlanks ⟨before, bl ++ b⟩ () (Cursor.past bl ⟨before, bl ++ b⟩ b) :=
  (finds_runOrNone rfl hbl hb).bind (finds_pure rfl _)

/-- All that is left is found, if there is anything. -/
theorem finds_remainder (before : Option Char) (k : Char) (rest : Text) :
    Finds remainder ⟨before, k :: rest⟩ (k :: rest)
      (Cursor.past (k :: rest) ⟨before, k :: rest⟩ []) :=
  rfl

/-- Signs are found in front of anything. -/
theorem finds_signs (s : String) (before : Option Char) (b : Text) :
    Finds (signs s) ⟨before, s.toList ++ b⟩ ()
      (Cursor.past s.toList ⟨before, s.toList ++ b⟩ b) := by
  have hprefix : s.toList.isPrefixOf (s.toList ++ b) = true :=
    List.isPrefixOf_iff_prefix.mpr (List.prefix_append _ _)
  rw [Finds, signs, if_pos hprefix, ← String.length_toList, List.drop_left]
  rfl

/-! ### Keywords inside a text -/

/-- The characters that a keyword takes are word characters. -/
theorem isWordChar_of_map_foldKeyword {kw word : Text} (h : kw.map Text.foldKeyword = word)
    (hword : ∀ k ∈ word, Text.IsKeyLetter k) : ∀ k ∈ kw, Text.isWordChar k = true := by
  intro k hk
  exact Text.isWordChar_of_foldKeyword rfl (hword _ (h ▸ List.mem_map_of_mem hk))

/-- A phrase stands somewhere in a text, from the edge of a word to the edge of a word. -/
def Mentioned (phrase : Pattern Unit) (t : Text) : Prop :=
  ∃ a b, t = a ++ b ∧ (do edge; phrase; edge : Pattern Unit) ⟨a.getLast?, b⟩ ≠ []

instance (phrase : Pattern Unit) (t : Text) : Decidable (Mentioned phrase t) :=
  decidable_of_iff ((List.range (t.length + 1)).any (fun i => !List.isEmpty
      ((do edge; phrase; edge : Pattern Unit) ⟨(t.take i).getLast?, t.drop i⟩)) = true) <| by
    simp only [List.any_eq_true, Bool.not_eq_true', List.isEmpty_eq_false_iff, List.mem_range]
    constructor
    · rintro ⟨i, -, h⟩
      exact ⟨t.take i, t.drop i, (List.take_append_drop i t).symm, h⟩
    · rintro ⟨a, b, rfl, h⟩
      refine ⟨a.length, ?_, ?_⟩
      · rw [List.length_append]
        omega
      · rwa [List.take_left, List.drop_left]

/-- **A keyword behind blanks lies on one side of a blank.** If blanks and a keyword stand at the
start of a text that goes on, behind a character that is not blank, with a blank, they stand before
that blank. -/
theorem keyword_before_blank {b rest bl kw z word : Text} (hb : b ≠ [])
    (hlast : ∀ k ∈ b.getLast?, Text.isBlank k = false) (hbl : ∀ k ∈ bl, Text.isBlank k = true)
    (hkw : kw.map Text.foldKeyword = word) (hword : ∀ k ∈ word, Text.IsKeyLetter k)
    (h : b ++ ' ' :: rest = bl ++ kw ++ z) : ∃ z', b = bl ++ kw ++ z' ∧ z = z' ++ ' ' :: rest := by
  rcases List.append_eq_append_iff.mp h with ⟨a, ha, hz⟩ | ⟨z', hb', hz⟩
  · cases a with
    | nil =>
      rw [List.append_nil] at ha
      exact ⟨[], by rw [List.append_nil, ha], hz.symm⟩
    | cons k a =>
      -- the blank would be a character of the keyword, or one of the blanks before it
      obtain ⟨rfl, -⟩ := List.cons.inj hz
      rcases List.append_eq_append_iff.mp ha with ⟨x, -, hx⟩ | ⟨x, hx, -⟩
      · have hblank := isWordChar_of_map_foldKeyword hkw hword ' ' (by rw [hx]; simp)
        exact absurd hblank (by decide)
      · have hmem : b.getLast hb ∈ bl := by
          rw [hx]
          exact List.mem_append_left _ (List.getLast_mem hb)
        have hnone := hlast _ (List.getLast?_eq_some_getLast hb)
        rw [hbl _ hmem] at hnone
        cases hnone
  · exact ⟨z', hb', hz⟩

end Pattern

end Pseudocode
