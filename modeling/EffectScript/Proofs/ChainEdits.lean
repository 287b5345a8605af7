import EffectScript.Effect.Chain

/-!
# Editing a chain

A call that edits a chain is refused and leaves it as it was, or it puts in, takes out or moves one
effect.  `Edit.Changes` shows for each call the effects before and after it, cut into the stretches
that stay together.  Over a row of calls no effect is lost or doubled, and the effects that no call
puts in, takes out or moves stay in their order.
-/

namespace EffectScript

namespace Chain

/-! ### Calls -/

/-- A call that edits a chain. -/
inductive Edit where
  | add (effect : Effect)
  | insert (place : Nat) (effect : Effect)
  | remove (place : Nat)
  | move (source target : Nat)

/-- The answer to a call. -/
structure Answer where
  accepted : Bool
  /-- The effect that is handed back. -/
  handed : Option Effect

namespace Edit

/-- The answer to a call, and the chain after it. -/
def apply (chain : Chain) : Edit → Answer × Chain
  | add effect => (⟨true, none⟩, chain.add effect)
  | insert place effect =>
    let (accepted, chain) := chain.insert place effect
    (⟨accepted, none⟩, chain)
  | remove place =>
    let (handed, chain) := chain.remove place
    (⟨handed.isSome, handed⟩, chain)
  | move source target =>
    let (accepted, chain) := chain.move source target
    (⟨accepted, none⟩, chain)

/-- The places that a call names suit a chain of so many effects. -/
def Fits (count : Nat) : Edit → Prop
  | add _ => True
  | insert place _ => place ≤ count
  | remove place => place < count
  | move source target => source < count ∧ target < count ∧ source ≠ target

/-- The effects that a call brings along. -/
def given : Edit → List Effect
  | add effect => [effect]
  | insert _ effect => [effect]
  | remove _ => []
  | move _ _ => []

/-- The effect that a call puts in, takes out or moves. -/
def moved? (effects : List Effect) : Edit → Option Effect
  | add effect => some effect
  | insert _ effect => some effect
  | remove place => effects[place]?
  | move source _ => effects[source]?

/-- The effects before an accepted call, the one that it hands back, and the effects after it. -/
inductive Changes : Edit → List Effect → Option Effect → List Effect → Prop
  | added (effects : List Effect) (effect : Effect) :
    Changes (add effect) effects none (effects ++ [effect])
  | inserted (front back : List Effect) (effect : Effect) :
    Changes (insert front.length effect) (front ++ back) none (front ++ effect :: back)
  | removed (front back : List Effect) (effect : Effect) :
    Changes (remove front.length) (front ++ effect :: back) (some effect) (front ++ back)
  | forward (front between back : List Effect) (effect mark : Effect) :
    Changes (move front.length (front ++ effect :: between).length)
      (front ++ effect :: (between ++ mark :: back)) none
      (front ++ (between ++ effect :: mark :: back))
  | backward (front between back : List Effect) (effect mark : Effect) :
    Changes (move (front ++ mark :: between).length front.length)
      (front ++ mark :: (between ++ effect :: back)) none
      (front ++ effect :: mark :: (between ++ back))

end Edit

/-! ### Lists cut at a place -/

section Rows

variable {α : Type}

theorem insertIdx_append_length (front back : List α) (element : α) :
    (front ++ back).insertIdx front.length element = front ++ element :: back := by
  induction front with
  | nil => rfl
  | cons first front ih => simp [ih]

theorem eraseIdx_append_length (front back : List α) (element : α) :
    (front ++ element :: back).eraseIdx front.length = front ++ back := by
  rw [List.eraseIdx_append_of_length_le (Nat.le_refl _), Nat.sub_self, List.eraseIdx_cons_zero]

theorem getElem?_append_length (front back : List α) (element : α) :
    (front ++ element :: back)[front.length]? = some element := by
  rw [List.getElem?_append_right (Nat.le_refl _), Nat.sub_self, List.getElem?_cons_zero]

theorem append_cons_append (front between back : List α) (early late : α) :
    front ++ early :: (between ++ late :: back) = (front ++ early :: between) ++ late :: back := by
  simp

/-- A list is cut in front of one of its elements. -/
theorem exists_cut {elements : List α} {place : Nat} (inside : place < elements.length) :
    ∃ front element back, elements = front ++ element :: back ∧ front.length = place :=
  ⟨elements.take place, elements[place], elements.drop (place + 1),
    by rw [List.getElem_cons_drop, List.take_append_drop],
    List.length_take_of_le (Nat.le_of_lt inside)⟩

/-- A list is cut in front of two of its elements. -/
theorem exists_cut_twice {elements : List α} {first second : Nat} (ordered : first < second)
    (inside : second < elements.length) :
    ∃ front early between late back, elements = front ++ early :: (between ++ late :: back) ∧
      front.length = first ∧ (front ++ early :: between).length = second := by
  obtain ⟨long, late, back, rfl, length⟩ := exists_cut inside
  obtain ⟨front, early, between, rfl, rfl⟩ := exists_cut (length ▸ ordered)
  exact ⟨front, early, between, late, back,
    (append_cons_append front between back early late).symm, rfl, length⟩

end Rows

/-! ### One call -/

namespace Edit

variable {edit : Edit} {before after : List Effect} {handed : Option Effect}

/-- What a call brings along is in the chain afterwards, and what it hands back is not; otherwise
the chain has the same effects. -/
theorem Changes.perm (changes : edit.Changes before handed after) :
    (after ++ handed.toList).Perm (before ++ edit.given) := by
  cases changes with
  | added effects effect => simp [given]
  | inserted front back effect =>
    rw [Option.toList_none, List.append_nil]
    exact List.perm_middle.trans (List.perm_append_singleton effect (front ++ back)).symm
  | removed front back effect =>
    rw [given, List.append_nil]
    exact (List.perm_append_singleton effect (front ++ back)).trans List.perm_middle.symm
  | forward front between back effect mark =>
    rw [Option.toList_none, given, List.append_nil, List.append_nil]
    exact List.perm_middle.append_left front
  | backward front between back effect mark =>
    rw [Option.toList_none, given, List.append_nil, List.append_nil]
    exact ((List.Perm.swap mark effect _).trans (List.perm_middle.symm.cons mark)).append_left front

/-- The effects that a call does not put in, take out or move stay in their order. -/
theorem Changes.filter_eq (changes : edit.Changes before handed after) {stays : Effect → Bool}
    (leaves : ∀ effect ∈ edit.moved? before, stays effect = false) :
    after.filter stays = before.filter stays := by
  cases changes with
  | added effects effect => simp [leaves effect rfl]
  | inserted front back effect => simp [leaves effect rfl]
  | removed front back effect => simp [leaves effect (getElem?_append_length ..)]
  | forward front between back effect mark =>
    simp [List.filter_cons, leaves effect (getElem?_append_length ..)]
  | backward front between back effect mark =>
    have found : (front ++ mark :: (between ++ effect :: back))[
        (front ++ mark :: between).length]? = some effect := by
      rw [append_cons_append, getElem?_append_length]
    simp [List.filter_cons, leaves effect found]

/-- A move only permutes the effects. -/
theorem Changes.perm_of_move {source target : Nat}
    (changes : (move source target).Changes before handed after) : after.Perm before := by
  have same := changes.perm
  cases changes <;> simpa [given] using same

/-- A moved effect stands immediately in front of the one that was at the target, and the others
stand as if it had been taken out. -/
theorem Changes.of_move {source target : Nat}
    (changes : (move source target).Changes before handed after) :
    ∃ effect mark front back, before[source]? = some effect ∧ before[target]? = some mark ∧
      after = front ++ effect :: mark :: back ∧
      before.eraseIdx source = front ++ mark :: back := by
  cases changes with
  | forward front between back effect mark =>
    refine ⟨effect, mark, front ++ between, back, getElem?_append_length .., ?_, by simp, ?_⟩
    · rw [append_cons_append, getElem?_append_length]
    · rw [eraseIdx_append_length, List.append_assoc]
  | backward front between back effect mark =>
    refine ⟨effect, mark, front, between ++ back, ?_, getElem?_append_length .., rfl, ?_⟩
    · rw [append_cons_append, getElem?_append_length]
    · rw [append_cons_append, eraseIdx_append_length, List.append_assoc, List.cons_append]

end Edit

variable {chain : Chain}

theorem insert_of_le {place : Nat} (inside : place ≤ chain.effects.length) (effect : Effect) :
    chain.insert place effect =
      (true, { chain with effects := chain.effects.insertIdx place effect }) :=
  if_neg (Nat.not_lt_of_le inside)

theorem remove_of_getElem? {place : Nat} {effect : Effect}
    (found : chain.effects[place]? = some effect) :
    chain.remove place =
      (some effect, { chain with effects := chain.effects.eraseIdx place }) := by
  rw [remove, found]

theorem move_of_getElem? {source target : Nat} {effect : Effect}
    (found : chain.effects[source]? = some effect) (inside : target < chain.effects.length)
    (apart : source ≠ target) :
    chain.move source target =
      (true, { chain with
        effects := (chain.effects.eraseIdx source).insertIdx
          (if source < target then target - 1 else target) effect }) := by
  rw [move, found]
  dsimp only
  rw [if_neg]
  simp [Nat.not_le_of_lt inside, apart]

theorem move_of_not_fits {source target : Nat}
    (misfit : ¬(Edit.move source target).Fits chain.effects.length) :
    chain.move source target = (false, chain) := by
  rw [move]
  split
  · rfl
  · rename_i effect found
    obtain ⟨inside, _⟩ := List.getElem?_eq_some_iff.mp found
    rw [if_pos]
    rw [Bool.or_eq_true, decide_eq_true_eq, beq_iff_eq]
    by_cases beyond : chain.effects.length ≤ target
    · exact .inl beyond
    · refine .inr (Decidable.byContradiction fun apart => misfit ?_)
      exact ⟨inside, Nat.lt_of_not_le beyond, apart⟩

/-- A move changes the chain as it should, towards the end and towards the front. -/
theorem changes_move {source target : Nat}
    (fits : (Edit.move source target).Fits chain.effects.length) :
    ∃ effects, (Edit.move source target).Changes chain.effects none effects ∧
      chain.move source target = (true, { chain with effects }) := by
  obtain ⟨effects, bypassed⟩ := chain
  obtain ⟨sourceInside, targetInside, apart⟩ := fits
  dsimp only at sourceInside targetInside
  rcases Nat.lt_or_gt_of_ne apart with ahead | behind
  · obtain ⟨front, effect, between, mark, back, rfl, rfl, rfl⟩ :=
      exists_cut_twice ahead targetInside
    refine ⟨_, .forward front between back effect mark, ?_⟩
    have place : (front ++ effect :: between).length - 1 = (front ++ between).length := by simp
    rw [move_of_getElem? (getElem?_append_length ..) targetInside apart, if_pos ahead, place,
      eraseIdx_append_length, ← List.append_assoc, insertIdx_append_length, List.append_assoc]
  · obtain ⟨front, mark, between, effect, back, rfl, rfl, rfl⟩ :=
      exists_cut_twice behind sourceInside
    refine ⟨_, .backward front between back effect mark, ?_⟩
    have found : (front ++ mark :: (between ++ effect :: back))[
        (front ++ mark :: between).length]? = some effect := by
      rw [append_cons_append, getElem?_append_length]
    rw [move_of_getElem? found targetInside apart, if_neg (Nat.lt_asymm behind),
      append_cons_append, eraseIdx_append_length, List.append_assoc, List.cons_append,
      insertIdx_append_length]

/-- A call whose places suit the chain changes it as it should, and any other call is refused and
leaves it as it was. -/
theorem apply_cases (chain : Chain) (edit : Edit) :
    (edit.Fits chain.effects.length ∧ ∃ handed effects,
      edit.Changes chain.effects handed effects ∧
        edit.apply chain = (⟨true, handed⟩, { chain with effects })) ∨
    (¬edit.Fits chain.effects.length ∧ edit.apply chain = (⟨false, none⟩, chain)) := by
  cases edit with
  | add effect => exact .inl ⟨trivial, none, _, .added chain.effects effect, rfl⟩
  | insert place effect =>
    by_cases inside : place ≤ chain.effects.length
    · refine .inl ⟨inside, none, chain.effects.insertIdx place effect, ?_, ?_⟩
      · have changes := Edit.Changes.inserted (chain.effects.take place)
          (chain.effects.drop place) effect
        rwa [← insertIdx_append_length, List.take_append_drop,
          List.length_take_of_le inside] at changes
      · rw [Edit.apply, insert_of_le inside]
    · refine .inr ⟨inside, ?_⟩
      rw [Edit.apply, insert, if_pos (Nat.lt_of_not_le inside)]
  | remove place =>
    by_cases inside : place < chain.effects.length
    · obtain ⟨effects, bypassed⟩ := chain
      obtain ⟨front, effect, back, rfl, rfl⟩ := exists_cut inside
      refine .inl ⟨inside, some effect, _, .removed front back effect, ?_⟩
      rw [Edit.apply, remove_of_getElem? (getElem?_append_length ..), eraseIdx_append_length]
      rfl
    · refine .inr ⟨inside, ?_⟩
      rw [Edit.apply, remove, List.getElem?_eq_none (Nat.le_of_not_lt inside)]
      rfl
  | move source target =>
    by_cases fits : (Edit.move source target).Fits chain.effects.length
    · obtain ⟨effects, changes, moved⟩ := changes_move fits
      exact .inl ⟨fits, none, effects, changes, by rw [Edit.apply, moved]⟩
    · exact .inr ⟨fits, by rw [Edit.apply, move_of_not_fits fits]⟩

/-! ### Calls in a row -/

/-- A call with the chain before it, the answer, and the chain after it. -/
structure Step where
  before : Chain
  edit : Edit
  answer : Answer
  after : Chain

/-- The chain after calls in a row. -/
def editAll (chain : Chain) : List Edit → Chain
  | [] => chain
  | edit :: edits => (edit.apply chain).2.editAll edits

/-- Calls in a row, step by step. -/
def steps (chain : Chain) : List Edit → List Step
  | [] => []
  | edit :: edits =>
    let (answer, after) := edit.apply chain
    ⟨chain, edit, answer, after⟩ :: after.steps edits

namespace Step

/-- The effects that are outside the chain after a step: the one that was handed back, or the one
that was brought along and refused. -/
def outside (step : Step) : List Effect :=
  if step.answer.accepted then step.answer.handed.toList else step.edit.given

/-- A call is accepted exactly if its places suit the chain.  Then it changes the effects as it
should and nothing else; otherwise it hands nothing back and leaves the chain as it was. -/
structure Lawful (step : Step) : Prop where
  accepted_iff : step.answer.accepted = true ↔ step.edit.Fits step.before.effects.length
  changes : step.answer.accepted = true →
    step.edit.Changes step.before.effects step.answer.handed step.after.effects ∧
      step.after.bypassed = step.before.bypassed
  unchanged : step.answer.accepted = false →
    step.answer.handed = none ∧ step.after = step.before

theorem lawful_apply (chain : Chain) (edit : Edit) :
    Lawful ⟨chain, edit, (edit.apply chain).1, (edit.apply chain).2⟩ := by
  rcases chain.apply_cases edit with ⟨fits, handed, effects, changes, outcome⟩ | ⟨misfit, outcome⟩
  · rw [outcome]
    exact ⟨iff_of_true rfl fits, fun _ => ⟨changes, rfl⟩, nofun⟩
  · rw [outcome]
    exact ⟨iff_of_false nofun misfit, nofun, fun _ => ⟨rfl, rfl⟩⟩

variable {step : Step}

theorem Lawful.perm (lawful : step.Lawful) :
    (step.after.effects ++ step.outside).Perm (step.before.effects ++ step.edit.given) := by
  cases accepted : step.answer.accepted with
  | true =>
    rw [outside, if_pos accepted]
    exact (lawful.changes accepted).1.perm
  | false =>
    rw [outside, if_neg (by simp [accepted]), (lawful.unchanged accepted).2]

theorem Lawful.filter_eq (lawful : step.Lawful) {stays : Effect → Bool}
    (leaves : step.answer.accepted = true →
      ∀ effect ∈ step.edit.moved? step.before.effects, stays effect = false) :
    step.after.effects.filter stays = step.before.effects.filter stays := by
  cases accepted : step.answer.accepted with
  | true => exact (lawful.changes accepted).1.filter_eq (leaves accepted)
  | false => rw [(lawful.unchanged accepted).2]

end Step

theorem lawful_of_mem_steps {edits : List Edit} {step : Step} (member : step ∈ chain.steps edits) :
    step.Lawful := by
  induction edits generalizing chain with
  | nil => exact nomatch member
  | cons edit edits ih =>
    rcases List.mem_cons.mp member with rfl | later
    · exact Step.lawful_apply chain edit
    · exact ih later

open List in
/-- Over calls in a row, what is in the chain or was left outside is what was in the chain or was
brought along. -/
theorem perm_editAll (chain : Chain) (edits : List Edit) :
    ((chain.editAll edits).effects ++ (chain.steps edits).flatMap Step.outside).Perm
      (chain.effects ++ edits.flatMap Edit.given) := by
  induction edits generalizing chain with
  | nil => exact List.Perm.refl _
  | cons edit edits ih =>
    let step : Step := ⟨chain, edit, (edit.apply chain).1, (edit.apply chain).2⟩
    have first : (step.after.effects ++ step.outside).Perm (chain.effects ++ edit.given) :=
      (Step.lawful_apply chain edit).perm
    have later := ih step.after
    calc
      (step.after.editAll edits).effects ++
          (step.outside ++ (step.after.steps edits).flatMap Step.outside) ~
        step.outside ++ ((step.after.editAll edits).effects ++
          (step.after.steps edits).flatMap Step.outside) := perm_append_comm_assoc ..
      _ ~ step.outside ++ (step.after.effects ++ edits.flatMap Edit.given) :=
        later.append_left step.outside
      _ ~ step.after.effects ++ (step.outside ++ edits.flatMap Edit.given) :=
        perm_append_comm_assoc ..
      _ = step.after.effects ++ step.outside ++ edits.flatMap Edit.given :=
        (append_assoc ..).symm
      _ ~ chain.effects ++ edit.given ++ edits.flatMap Edit.given := first.append_right _
      _ = chain.effects ++ (edit :: edits).flatMap Edit.given := by
        rw [flatMap_cons, append_assoc]

theorem filter_editAll {stays : Effect → Bool} {edits : List Edit}
    (leaves : ∀ step ∈ chain.steps edits, step.answer.accepted = true →
      ∀ effect ∈ step.edit.moved? step.before.effects, stays effect = false) :
    (chain.editAll edits).effects.filter stays = chain.effects.filter stays := by
  induction edits generalizing chain with
  | nil => rfl
  | cons edit edits ih =>
    have later := ih fun step member => leaves step (List.mem_cons_of_mem _ member)
    have first := (Step.lawful_apply chain edit).filter_eq (leaves _ List.mem_cons_self)
    exact later.trans first

/-- Editing touches nothing else.  In calls in a row, each call is refused and leaves the chain as
it was, or changes it exactly as it should; an accepted move permutes the effects, so that the moved
one stands immediately in front of the one at the target and the others in their order.  What is in
the chain in the end or was left outside is what was in it or was brought along, and the effects
that no accepted call puts in, takes out or moves stand in the same order as before. -/
theorem edits_touch_nothing_else (chain : Chain) (edits : List Edit) :
    (∀ step ∈ chain.steps edits, step.Lawful ∧
      ∀ source target, step.edit = .move source target → step.answer.accepted = true →
        step.after.effects.Perm step.before.effects ∧
          ∃ effect mark front back, step.before.effects[source]? = some effect ∧
            step.before.effects[target]? = some mark ∧
            step.after.effects = front ++ effect :: mark :: back ∧
            step.before.effects.eraseIdx source = front ++ mark :: back) ∧
    ((chain.editAll edits).effects ++ (chain.steps edits).flatMap Step.outside).Perm
      (chain.effects ++ edits.flatMap Edit.given) ∧
    ∀ stays : Effect → Bool,
      (∀ step ∈ chain.steps edits, step.answer.accepted = true →
        ∀ effect ∈ step.edit.moved? step.before.effects, stays effect = false) →
      (chain.editAll edits).effects.filter stays = chain.effects.filter stays := by
  refine ⟨fun step member => ?_, chain.perm_editAll edits, fun _ => filter_editAll⟩
  have lawful := lawful_of_mem_steps member
  refine ⟨lawful, fun source target moves accepted => ?_⟩
  obtain ⟨before, edit, ⟨_, handed⟩, after⟩ := step
  obtain rfl := moves
  have changes := (lawful.changes accepted).1
  exact ⟨changes.perm_of_move, changes.of_move⟩

/-- An effect that is told apart by its block size. -/
def numbered (number : Nat) (bypassed : Bool) : Effect :=
  { Effect.fresh with maxBlockSize := number, bypassed }

/-- Four effects, two of them bypassed. -/
def fourEffects : Chain :=
  ⟨[numbered 1 false, numbered 2 true, numbered 3 false, numbered 4 true], false⟩

/-- Two moves, a refused insertion and a removal, which leave the bypassed effects alone. -/
def fourCalls : List Edit :=
  [.move 0 3, .insert 9 (numbered 5 true), .remove 1, .move 1 0]

theorem edits_touch_nothing_else_fourCalls :
    (∀ step ∈ fourEffects.steps fourCalls, step.answer.accepted = true →
      ∀ effect ∈ step.edit.moved? step.before.effects, effect.bypassed = false) ∧
    (fourEffects.editAll fourCalls).effects =
      [numbered 1 false, numbered 2 true, numbered 4 true] ∧
    (fourEffects.editAll fourCalls).effects.filter Effect.bypassed =
      fourEffects.effects.filter Effect.bypassed := by
  have leaves : ∀ step ∈ fourEffects.steps fourCalls, step.answer.accepted = true →
      ∀ effect ∈ step.edit.moved? step.before.effects, effect.bypassed = false := by
    simp [fourEffects, fourCalls, steps, Edit.apply, move, insert, remove, Edit.moved?, numbered]
  exact ⟨leaves, rfl, (edits_touch_nothing_else fourEffects fourCalls).2.2 _ leaves⟩

end Chain

end EffectScript
