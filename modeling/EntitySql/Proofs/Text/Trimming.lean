import EntitySql.Text.Blank
import Mathlib.Data.List.Basic
import Mathlib.Data.List.TakeWhile

namespace EntitySql.Text

variable {drop : Char → Bool} {cs core before after : List Char}

/-- A text without characters of a class at either end. -/
structure Trimmed (drop : Char → Bool) (cs : List Char) : Prop where
  first : ∀ c ∈ cs.head?, drop c = false
  last : ∀ c ∈ cs.getLast?, drop c = false

instance : Decidable (Trimmed drop cs) :=
  decidable_of_iff (cs.head?.all (!drop ·) = true ∧ cs.getLast?.all (!drop ·) = true)
    ⟨fun ⟨hfirst, hlast⟩ => ⟨by simpa [Option.all_eq_true] using hfirst, by simpa [Option.all_eq_true] using hlast⟩,
      fun h => ⟨by simpa [Option.all_eq_true] using h.first, by simpa [Option.all_eq_true] using h.last⟩⟩

/-- A text is a trimmed one with characters of the class before and after it. -/
def TrimsTo (drop : Char → Bool) (cs core : List Char) : Prop :=
  Trimmed drop core ∧ ∃ before after, cs = before ++ core ++ after ∧ (∀ c ∈ before, drop c = true) ∧
    ∀ c ∈ after, drop c = true

private theorem trimLeft_append (h : ∀ c ∈ before, drop c = true) (cs : List Char) :
    trimLeft drop (before ++ cs) = trimLeft drop cs := List.dropWhile_append_of_pos h

private theorem trimLeft_of_first (h : ∀ c ∈ cs.head?, drop c = false) : trimLeft drop cs = cs := by
  cases cs with
  | nil => rfl
  | cons c rest => exact List.dropWhile_cons_of_neg (by simpa using h c rfl)

/-- The start of a text is dropped up to the first character that is kept. -/
theorem exists_trimLeft (drop : Char → Bool) (cs : List Char) :
    ∃ before, cs = before ++ trimLeft drop cs ∧ (∀ c ∈ before, drop c = true) ∧
      ∀ c ∈ (trimLeft drop cs).head?, drop c = false := by
  refine ⟨cs.takeWhile drop, List.takeWhile_append_dropWhile.symm, fun c hc => List.mem_takeWhile_imp hc,
    fun c hc => ?_⟩
  have hhead := List.head?_dropWhile_not drop cs
  rw [show cs.dropWhile drop = trimLeft drop cs from rfl, Option.mem_def.mp hc] at hhead
  simpa using hhead

theorem trim_of_trimsTo (h : TrimsTo drop cs core) : trim drop cs = core := by
  obtain ⟨⟨hfirst, hlast⟩, before, after, rfl, hbefore, hafter⟩ := h
  rw [trim, List.append_assoc, trimLeft_append hbefore]
  cases core with
  | nil =>
    have hnone : trimLeft drop after = [] := by simpa [trimLeft] using hafter
    rw [List.nil_append, hnone]
    rfl
  | cons c rest =>
    have hafter' : ∀ c ∈ after.reverse, drop c = true := fun c hc => hafter c (List.mem_reverse.mp hc)
    have hstart : trimLeft drop (c :: rest ++ after) = c :: rest ++ after := trimLeft_of_first hfirst
    have hend : trimLeft drop (c :: rest).reverse = (c :: rest).reverse :=
      trimLeft_of_first (List.head?_reverse ▸ hlast)
    rw [hstart, List.reverse_append, trimLeft_append hafter', hend, List.reverse_reverse]

theorem trimsTo_trim (drop : Char → Bool) (cs : List Char) : TrimsTo drop cs (trim drop cs) := by
  obtain ⟨before, hcs, hbefore, hfirst⟩ := exists_trimLeft drop cs
  obtain ⟨after, hrest, hafter, hlast⟩ := exists_trimLeft drop (trimLeft drop cs).reverse
  have hsplit : trimLeft drop cs = trim drop cs ++ after.reverse := by
    rw [trim, ← List.reverse_append, ← hrest, List.reverse_reverse]
  refine ⟨⟨fun c hc => hfirst c ?_, by simpa [trim] using hlast⟩, before, after.reverse, ?_, hbefore,
    fun c hc => hafter c (List.mem_reverse.mp hc)⟩
  · rw [hsplit]
    exact List.mem_head?_append_of_mem_head? hc
  · rw [List.append_assoc, ← hsplit]
    exact hcs

/-- A text has one core, and trimming leaves it. -/
theorem trim_eq_iff : trim drop cs = core ↔ TrimsTo drop cs core :=
  ⟨fun h => h ▸ trimsTo_trim drop cs, trim_of_trimsTo⟩

theorem trim_eq_self_iff : trim drop cs = cs ↔ Trimmed drop cs := by
  rw [trim_eq_iff]
  exact ⟨fun h => h.1, fun h => ⟨h, [], [], by simp, by simp, by simp⟩⟩

theorem trimsTo_nil_iff : TrimsTo drop cs [] ↔ ∀ c ∈ cs, drop c = true := by
  constructor
  · rintro ⟨-, before, after, rfl, hbefore, hafter⟩ c hc
    rw [List.append_nil, List.mem_append] at hc
    exact hc.elim (hbefore c) (hafter c)
  · intro h
    exact ⟨⟨nofun, nofun⟩, cs, [], by simp, h, by simp⟩

end EntitySql.Text
