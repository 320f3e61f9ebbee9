import Mathlib.Data.List.Induction
import Mathlib.Data.List.Nodup
import Mathlib.Logic.Function.Iterate

/-! Names given out in turn: whoever asks for a name that is taken gets a second one made from
it, whether or not that one is taken as well. -/

set_option autoImplicit false

namespace Lib.SecondChoice

variable {Name : Type} [DecidableEq Name] (second : Name → Name)

def choose (taken : List Name) (name : Name) : Name :=
  if name ∈ taken then second name else name

/-- Who asks next gets a name besides those given out. -/
def give (given : List Name) (name : Name) : List Name := given ++ [choose second given name]

def given (asked : List Name) : List Name := asked.foldl (give second) []

/-- Asking for these in turn makes the last one ask for a taken name: it is asked for twice,
and every second name that this gives out is asked for next. -/
def climb (name : Name) : Nat → List Name
  | 0 => [name, name]
  | height + 1 => climb name height ++ [second^[height + 1] name]

/-- The name was asked for, or given out as a second one. -/
def Held (asked : List Name) (name : Name) : Prop :=
  name ∈ asked ∨ ∃ first height, (climb second first height).Sublist asked ∧
    second^[height + 1] first = name

/-- Someone asks for a name that is held, and so is the second one. -/
def Clashes (asked : List Name) : Prop :=
  ∃ before name after, asked = before ++ name :: after ∧
    Held second before name ∧ Held second before (second name)

variable {second} {asked : List Name} {name : Name}

@[simp] theorem given_nil : given second [] = [] := rfl

theorem given_concat (asked : List Name) (name : Name) :
    given second (asked ++ [name]) =
      given second asked ++ [choose second (given second asked) name] := by
  simp [given, give]

omit [DecidableEq Name] in
theorem sublist_concat_iff {items others : List Name} {item last : Name} :
    (items ++ [item]).Sublist (others ++ [last]) ↔
      (items ++ [item]).Sublist others ∨ item = last ∧ items.Sublist others := by
  constructor
  · intro sub
    obtain ⟨front, back, split, before, after⟩ := List.sublist_append_iff.mp sub
    rcases List.sublist_singleton.mp after with rfl | rfl
    · exact .inl (by simpa [split] using before)
    · obtain ⟨rfl, same⟩ := List.append_inj' split rfl
      exact .inr ⟨List.singleton_inj.mp same, before⟩
  · rintro (sub | ⟨rfl, sub⟩)
    · exact sub.trans (List.sublist_append_left _ _)
    · exact sub.append (.refl _)

omit [DecidableEq Name] in
theorem Held.mono {others : List Name} (held : Held second asked name)
    (sub : asked.Sublist others) : Held second others name := by
  rcases held with member | ⟨first, height, climbs, top⟩
  · exact .inl (sub.subset member)
  · exact .inr ⟨first, height, climbs.trans sub, top⟩

omit [DecidableEq Name] in
/-- Who asks for a held name makes the second one held. -/
theorem Held.second_concat (held : Held second asked name) :
    Held second (asked ++ [name]) (second name) := by
  rcases held with member | ⟨first, height, climbs, rfl⟩
  · have twice : ([name] ++ [name]).Sublist (asked ++ [name]) :=
      sublist_concat_iff.mpr (.inr ⟨rfl, List.singleton_sublist.mpr member⟩)
    exact .inr ⟨name, 0, twice, rfl⟩
  · refine .inr ⟨first, height + 1, ?_, Function.iterate_succ_apply' ..⟩
    exact sublist_concat_iff.mpr (.inr ⟨rfl, climbs⟩)

omit [DecidableEq Name] in
theorem held_concat_iff {last : Name} : Held second (asked ++ [last]) name ↔
    Held second asked name ∨ name = last ∨ Held second asked last ∧ name = second last := by
  constructor
  · rintro (member | ⟨first, height, climbs, rfl⟩)
    · rcases List.mem_append.mp member with early | late
      · exact .inl (.inl early)
      · exact .inr (.inl (List.mem_singleton.mp late))
    · cases height with
      | zero =>
          have twice : ([first] ++ [first]).Sublist (asked ++ [last]) := climbs
          rcases sublist_concat_iff.mp twice with early | ⟨rfl, sub⟩
          · exact .inl (.inr ⟨first, 0, early, rfl⟩)
          · exact .inr (.inr ⟨.inl (List.singleton_sublist.mp sub), rfl⟩)
      | succ height =>
          rcases sublist_concat_iff.mp climbs with early | ⟨rfl, sub⟩
          · exact .inl (.inr ⟨first, height + 1, early, rfl⟩)
          · refine .inr (.inr ⟨.inr ⟨first, height, sub, rfl⟩, ?_⟩)
            exact Function.iterate_succ_apply' ..
  · rintro (held | rfl | ⟨held, rfl⟩)
    · exact held.mono (List.sublist_append_left _ _)
    · exact .inl (List.mem_append_right _ (List.mem_singleton_self _))
    · exact held.second_concat

/-- The names that are held are those given out. -/
theorem mem_given_iff : name ∈ given second asked ↔ Held second asked name := by
  induction asked using List.reverseRecOn generalizing name with
  | nil =>
      rw [given_nil]
      refine ⟨fun none => absurd none List.not_mem_nil, ?_⟩
      rintro (none | ⟨first, height, climbs, -⟩)
      · exact none
      · cases height <;> simp [climb] at climbs
  | append_singleton asked last ih =>
      rw [given_concat, List.mem_append, List.mem_singleton, ih, held_concat_iff]
      by_cases taken : last ∈ given second asked
      · have held := ih.mp taken
        rw [choose, if_pos taken]
        constructor
        · rintro (early | rfl)
          · exact .inl early
          · exact .inr (.inr ⟨held, rfl⟩)
        · rintro (early | rfl | ⟨-, rfl⟩)
          · exact .inl early
          · exact .inl held
          · exact .inr rfl
      · have free : ¬ Held second asked last := fun held => taken (ih.mpr held)
        rw [choose, if_neg taken]
        simp [free]

omit [DecidableEq Name] in
theorem clashes_concat_iff : Clashes second (asked ++ [name]) ↔
    Clashes second asked ∨ Held second asked name ∧ Held second asked (second name) := by
  constructor
  · rintro ⟨before, clashing, after, split, first, held⟩
    rcases List.eq_nil_or_concat after with rfl | ⟨after, last, rfl⟩
    · obtain ⟨rfl, same⟩ := List.append_inj' split rfl
      obtain rfl := List.singleton_inj.mp same
      exact .inr ⟨first, held⟩
    · rw [List.concat_eq_append, ← List.cons_append, ← List.append_assoc] at split
      obtain ⟨rfl, -⟩ := List.append_inj' split rfl
      exact .inl ⟨before, clashing, after, rfl, first, held⟩
  · rintro (⟨before, clashing, after, rfl, first, held⟩ | ⟨first, held⟩)
    · exact ⟨before, clashing, after ++ [name], by simp, first, held⟩
    · exact ⟨asked, name, [], rfl, first, held⟩

/-- The names given out differ exactly if nobody asks for a name when both this one and the
second one made from it are held. -/
theorem given_nodup_iff : (given second asked).Nodup ↔ ¬ Clashes second asked := by
  induction asked using List.reverseRecOn with
  | nil =>
      refine iff_of_true List.nodup_nil ?_
      rintro ⟨before, name, after, split, -⟩
      simp at split
  | append_singleton asked last ih =>
      have next : choose second (given second asked) last ∈ given second asked ↔
          Held second asked last ∧ Held second asked (second last) := by
        by_cases taken : last ∈ given second asked
        · rw [choose, if_pos taken, mem_given_iff, and_iff_right (mem_given_iff.mp taken)]
        · rw [choose, if_neg taken]
          exact iff_of_false taken fun held => taken (mem_given_iff.mpr held.1)
      rw [given_concat, ← List.concat_eq_append, List.nodup_concat, ih, next, clashes_concat_iff,
        not_or, and_comm]

omit [DecidableEq Name] in
/-- A name that is asked for three times clashes. -/
theorem clashes_of_thrice (thrice : [name, name, name].Sublist asked) :
    Clashes second asked := by
  have last : ([name, name] ++ [name]).Sublist asked := thrice
  obtain ⟨front, back, rfl, double, single⟩ := List.append_sublist_iff.mp last
  obtain ⟨between, after, rfl⟩ := List.append_of_mem (List.singleton_sublist.mp single)
  have early : [name, name].Sublist (front ++ between) :=
    double.trans (List.sublist_append_left _ _)
  exact ⟨front ++ between, name, after, (List.append_assoc ..).symm,
    .inl (early.subset List.mem_cons_self), .inr ⟨name, 0, early, rfl⟩⟩

end Lib.SecondChoice
