import Mathlib.Algebra.Ring.Int.Defs
import Mathlib.Algebra.Ring.Nat
import Mathlib.Data.List.Basic
import Mathlib.Tactic.SplitIfs

set_option autoImplicit false

namespace Printing

/-- A buffer as the code that prints into it sees it: the bytes from its first one on, where the
next piece goes and how many bytes are left. -/
structure Cells where
  memory : Nat → UInt8
  offset : Nat
  free : Nat

/-- snprintf at `start` with room for `size` bytes, the terminator among them. -/
def snprintf (memory : Nat → UInt8) (start size : Nat) (text : List UInt8) : Nat → UInt8 :=
  fun cell =>
  if start ≤ cell ∧ cell < start + min text.length (size - 1) then text.getD (cell - start) 0
  else if 0 < size ∧ cell = start + min text.length (size - 1) then 0
  else memory cell

/-- Its result: the length of the whole text, or -1 when an int cannot hold it. -/
def usedChars (text : List UInt8) : Int := if text.length ≤ 2147483647 then text.length else -1

/-- An int compared with a size_t. -/
def asSize (value : Int) : Nat := (value % 2 ^ 64).toNat

abbrev Print (ε α : Type) := EStateM ε Cells α

variable {ε α β : Type}

def print (text : List UInt8) : Print ε Int := fun cells =>
  .ok (usedChars text) { cells with memory := snprintf cells.memory cells.offset cells.free text }

def advance (full : ε) (used : Int) : Print ε Unit := fun cells =>
  if cells.free ≤ asSize used then .error full cells
  else .ok () { cells with offset := cells.offset + asSize used, free := cells.free - asSize used }

def put (full : ε) (text : List UInt8) : Print ε Unit := do
  let used ← print text
  advance full used

def puts (full : ε) (texts : List (List UInt8)) : Print ε Unit := texts.forM (put full)

def before (memory : Nat → UInt8) (count : Nat) : List UInt8 := (List.range count).map memory

structure Strlen (memory : Nat → UInt8) (length : Nat) : Prop where
  inner : ∀ cell < length, memory cell ≠ 0
  terminator : memory length = 0

theorem asSize_length {text : List UInt8} (small : text.length ≤ 2147483647) :
    asSize (usedChars text) = text.length := by
  rw [usedChars, if_pos small, asSize]
  omega

theorem asSize_large {text : List UInt8} (large : 2147483647 < text.length) :
    asSize (usedChars text) = 2 ^ 64 - 1 := by
  rw [usedChars, if_neg (by omega), asSize]
  rfl

theorem snprintf_before {memory : Nat → UInt8} {start size cell : Nat} (text : List UInt8)
    (earlier : cell < start) :
    snprintf memory start size text cell = memory cell := by
  rw [snprintf, if_neg (by omega), if_neg (by omega)]

theorem snprintf_beyond {memory : Nat → UInt8} {start size cell : Nat} (text : List UInt8)
    (later : start + size ≤ cell) : snprintf memory start size text cell = memory cell := by
  rw [snprintf, if_neg (by omega), if_neg (by omega)]

theorem snprintf_inside {memory : Nat → UInt8} {start size index : Nat} {text : List UInt8}
    (fits : text.length < size) (inside : index < text.length) :
    snprintf memory start size text (start + index) = text[index] := by
  rw [snprintf, if_pos (by omega), Nat.add_sub_cancel_left, List.getD_eq_getElem?_getD,
    List.getElem?_eq_getElem inside, Option.getD_some]

theorem snprintf_end {memory : Nat → UInt8} {start size : Nat} {text : List UInt8}
    (fits : text.length < size) :
    snprintf memory start size text (start + text.length) = 0 := by
  rw [snprintf, if_neg (by omega), if_pos (by omega)]

theorem snprintf_text {memory : Nat → UInt8} {start size : Nat} {text : List UInt8}
    (fits : text.length < size) :
    before (snprintf memory start size text) (start + text.length) =
    before memory start ++ text := by
  rw [before, List.range_add, List.map_append, List.map_map]
  congr 1
  · apply List.map_congr_left
    intro cell member
    exact snprintf_before text (List.mem_range.mp member)
  · apply List.ext_getElem
    · simp
    · intro index _ inside
      simpa using snprintf_inside fits inside

theorem ok_of_bind {first : Print ε α} {next : α → Print ε β} {cells after : Cells} {result : β}
    (run : (first >>= next) cells = .ok result after) :
    ∃ value reached, first cells = .ok value reached ∧ next value reached = .ok result after := by
  change EStateM.bind first next cells = _ at run
  unfold EStateM.bind at run
  cases here : first cells with
  | error error reached =>
    rw [here] at run
    cases run
  | ok value reached =>
    rw [here] at run
    exact ⟨value, reached, rfl, run⟩

theorem bind_of_ok {first : Print ε α} {next : α → Print ε β} {cells reached : Cells} {value : α}
    (run : first cells = .ok value reached) : (first >>= next) cells = next value reached := by
  change EStateM.bind first next cells = _
  unfold EStateM.bind
  rw [run]

theorem bind_of_error {first : Print ε α} {next : α → Print ε β} {cells reached : Cells} {error : ε}
    (run : first cells = .error error reached) : (first >>= next) cells = .error error reached := by
  change EStateM.bind first next cells = _
  unfold EStateM.bind
  rw [run]

theorem put_eq (full : ε) (text : List UInt8) {cells : Cells} (small : cells.free < 2 ^ 64) :
    put full text cells =
      if text.length < cells.free ∧ text.length ≤ 2147483647 then
        .ok () ⟨snprintf cells.memory cells.offset cells.free text, cells.offset + text.length,
          cells.free - text.length⟩
      else .error full
          { cells with memory := snprintf cells.memory cells.offset cells.free text } := by
  have run :
      put full text cells = advance full (usedChars text)
        { cells with memory := snprintf cells.memory cells.offset cells.free text } := rfl
  rw [run, advance]
  by_cases long : text.length ≤ 2147483647
  · by_cases fits : text.length < cells.free
    · rw [asSize_length long, if_neg (by dsimp only; omega), if_pos ⟨fits, long⟩]
    · rw [asSize_length long, if_pos (by dsimp only; omega), if_neg (by omega)]
  · rw [asSize_large (by omega), if_pos (by dsimp only; omega), if_neg (by omega)]

def Keeps (inv : Cells → Prop) (program : Print ε α) : Prop :=
  ∀ cells, inv cells →
    match program cells with
    | .ok _ after | .error _ after => inv after

section

variable {inv : Cells → Prop}

theorem Keeps.pure (value : α) : Keeps inv (Pure.pure value : Print ε α) := fun _ holds => holds

theorem Keeps.throw (error : ε) : Keeps inv (throw error : Print ε α) := fun _ holds => holds

theorem Keeps.bind {first : Print ε α} {next : α → Print ε β} (kept : Keeps inv first)
    (later : ∀ value, Keeps inv (next value)) : Keeps inv (first >>= next) := by
  intro cells holds
  have here := kept cells holds
  cases run : first cells with
  | ok value after =>
    rw [run] at here
    rw [bind_of_ok run]
    exact later value after here
  | error error after =>
    rw [run] at here
    rw [bind_of_error run]
    exact here

end

structure Inside (size : Nat) (memory : Nat → UInt8) (cells : Cells) : Prop where
  room : cells.offset + cells.free ≤ size
  beyond : ∀ cell, size ≤ cell → cells.memory cell = memory cell

section

variable {size : Nat} {memory : Nat → UInt8}

theorem print_keeps (text : List UInt8) : Keeps (Inside size memory)
    (print text : Print ε Int) := by
  intro cells inside
  refine ⟨inside.room, fun cell later => ?_⟩
  have room := inside.room
  exact (snprintf_beyond text (by omega)).trans (inside.beyond cell later)

theorem advance_keeps (full : ε) (used : Int) : Keeps (Inside size memory) (advance full used) := by
  intro cells inside
  rw [advance]
  split_ifs with short
  · exact inside
  · have room := inside.room
    refine ⟨?_, inside.beyond⟩
    dsimp only
    omega

theorem put_keeps (full : ε) (text : List UInt8) : Keeps (Inside size memory) (put full text) :=
  (print_keeps text).bind (advance_keeps full)

end

theorem puts_cons (full : ε) (text : List UInt8) (texts : List (List UInt8)) :
    puts full (text :: texts) = put full text >>= fun _ => puts full texts := rfl

theorem puts_append (full : ε) (front rest : List (List UInt8)) :
    puts full (front ++ rest) = puts full front >>= fun _ => puts full rest := by
  induction front with
  | nil => rfl
  | cons text front ih => rw [List.cons_append, puts_cons, ih, puts_cons, bind_assoc]

structure Printed (cells after : Cells) (text : List UInt8) : Prop where
  content : before after.memory after.offset = before cells.memory cells.offset ++ text
  free : text.length + after.free = cells.free
  room : 0 < after.free

theorem put_printed {full : ε} {text : List UInt8} {cells after : Cells}
    (small : cells.free < 2 ^ 64) (run : put full text cells = .ok () after) :
    Printed cells after text ∧ after.memory after.offset = 0 := by
  rw [put_eq full text small] at run
  split_ifs at run with fits
  cases run
  refine ⟨⟨snprintf_text fits.1, ?_, ?_⟩, snprintf_end fits.1⟩
  · dsimp only
    omega
  · dsimp only
    omega

theorem puts_printed {full : ε} {texts : List (List UInt8)} {cells after : Cells}
    (small : cells.free < 2 ^ 64) (some_text : texts ≠ [])
    (run : puts full texts cells = .ok () after) :
    Printed cells after texts.flatten ∧ after.memory after.offset = 0 := by
  induction texts generalizing cells with
  | nil => exact absurd rfl some_text
  | cons text texts ih =>
    obtain ⟨_, reached, first, rest⟩ := ok_of_bind run
    obtain ⟨here, ended⟩ := put_printed small first
    cases texts with
    | nil =>
      cases rest
      rw [List.flatten_cons, List.flatten_nil, List.append_nil]
      exact ⟨here, ended⟩
    | cons next texts =>
      have free := here.free
      obtain ⟨later, last⟩ := ih (by omega) (List.cons_ne_nil next texts) rest
      have more := later.free
      refine ⟨⟨?_, ?_, later.room⟩, last⟩
      · rw [later.content, here.content, List.append_assoc]
        rfl
      · rw [List.flatten_cons, List.length_append]
        omega

theorem puts_short {full : ε} {texts : List (List UInt8)} {cells after : Cells}
    (small : cells.free < 2 ^ 64) (run : puts full texts cells = .ok () after) : ∀ text ∈ texts,
    text.length ≤ 2147483647 := by
  induction texts generalizing cells with
  | nil => exact nofun
  | cons text texts ih =>
    obtain ⟨_, reached, first, rest⟩ := ok_of_bind run
    have free := (put_printed small first).1.free
    rw [put_eq full text small] at first
    split_ifs at first with fits
    exact List.forall_mem_cons.mpr ⟨fits.2, ih (by omega) rest⟩

theorem puts_error {full error : ε} {texts : List (List UInt8)} {cells after : Cells}
    (small : cells.free < 2 ^ 64) (run : puts full texts cells = .error error after) :
    error = full := by
  induction texts generalizing cells with
  | nil => cases run
  | cons text texts ih =>
    cases first : put full text cells with
    | ok value reached =>
      have free := (put_printed small first).1.free
      rw [puts_cons, bind_of_ok first] at run
      exact ih (by omega) run
    | error reason reached =>
      rw [puts_cons, bind_of_error first] at run
      rw [put_eq full text small] at first
      split_ifs at first with fits
      cases first
      cases run
      rfl

theorem puts_full (full : ε) {texts : List (List UInt8)} {cells : Cells}
    (small : cells.free < 2 ^ 64) (some_text : texts ≠ [])
    (short : cells.free ≤ texts.flatten.length) :
    ∃ after, puts full texts cells = .error full after := by
  cases run : puts full texts cells with
  | ok value after =>
    have printed := (puts_printed small some_text run).1
    have free := printed.free
    have room := printed.room
    omega
  | error error after =>
    rw [puts_error small run]
    exact ⟨after, rfl⟩

theorem puts_ok (full : ε) {texts : List (List UInt8)} {cells : Cells} (small : cells.free < 2 ^ 64)
    (short : ∀ text ∈ texts, text.length ≤ 2147483647) (fits : texts.flatten.length < cells.free) :
    ∃ after, puts full texts cells = .ok () after := by
  induction texts generalizing cells with
  | nil => exact ⟨cells, rfl⟩
  | cons text texts ih =>
    rw [List.forall_mem_cons] at short
    rw [List.flatten_cons, List.length_append] at fits
    have first := put_eq full text small
    rw [if_pos ⟨by omega, short.1⟩] at first
    rw [puts_cons, bind_of_ok first]
    exact ih (by dsimp only; omega) short.2 (by dsimp only; omega)

theorem before_length (memory : Nat → UInt8) (count : Nat) :
    (before memory count).length = count := by
  rw [before, List.length_map, List.length_range]

theorem strlen_of_nonzero {memory : Nat → UInt8} {length : Nat} (nonzero : 0 ∉ before memory length)
    (terminator : memory length = 0) : Strlen memory length where
  inner _ below zero := nonzero (zero ▸ List.mem_map_of_mem (List.mem_range.mpr below))
  terminator := terminator

end Printing
