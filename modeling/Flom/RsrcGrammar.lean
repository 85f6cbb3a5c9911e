import Flom.Lib.Ere
import Flom.Lib.Lists
import Flom.RsrcName
import Mathlib.Data.List.TakeDrop

set_option autoImplicit false

namespace Flom

open Ere Lists

def numberedExpr (first next : Char → Bool) : Expr Char :=
  .seq (.one first) (.seq (.star (.one next))
    (.seq (.literal '[') (.seq (.plus (.one Char.isDigit)) (.literal ']'))))

def identifierExpr : Expr Char := .seq (.one Char.isAlpha) (.star (.one Char.isAlphanum))

def levelExpr : Expr Char := .plus (.except fun c => c = '\\' || c = hierResourceSeparator)

def hierExpr : Expr Char :=
  .seq (.literal hierResourceSeparator)
    (.seq levelExpr (.star (.seq (.literal hierResourceSeparator) levelExpr)))

def rsrcExpr : RsrcType → Expr Char
  | .null => .anchored (.literal '_')
  | .simple =>
    .alt (.anchored (.word '_' ['R', 'E', 'S', 'O', 'U', 'R', 'C', 'E'])) (.anchored identifierExpr)
  | .numeric => .anchored (numberedExpr Char.isAlpha Char.isAlphanum)
  | .set =>
    .anchored (.seq identifierExpr (.plus (.seq (.literal resourceSetSeparator) identifierExpr)))
  | .hier => .anchored hierExpr
  | .sequence => .anchored (.seq (.literal '_') (.seq (.one fun c => c = 's' || c = 'S')
      (.seq (.literal '_') (numberedExpr Char.isAlpha Char.isAlphanum))))
  | .timestamp => .anchored (.seq (.literal '_') (.seq (.literal 't')
      (.seq (.literal '_') (numberedExpr timestampFirst timestampNext))))

section

variable {newline : Option Char}

theorem lang_identifier {text : Name} : identifierExpr.Lang newline text ↔
    identifier text = true := by
  rw [identifierExpr, lang_seq (by trivial) (by trivial)]
  simp only [lang_one, lang_star_one]
  constructor
  · rintro ⟨_, rest, rfl, ⟨first, rfl, alpha⟩, every⟩
    simp [identifier, alpha, List.all_eq_true.mpr every]
  · intro named
    cases text with
    | nil => cases named
    | cons first rest =>
      obtain ⟨alpha, every⟩ := (Bool.and_eq_true _ _).mp named
      exact ⟨[first], rest, rfl, ⟨first, rfl, alpha⟩, List.all_eq_true.mp every⟩

theorem eq_of_span {p : Char → Bool} {text front rest : Name}
    (spanned : text.span p = (front, rest)) :
    text = front ++ rest ∧ ∀ c ∈ front, p c = true := by
  rw [List.span_eq_takeWhile_dropWhile, Prod.mk.injEq] at spanned
  obtain ⟨rfl, rfl⟩ := spanned
  exact ⟨List.takeWhile_append_dropWhile.symm, List.all_eq_true.mp List.all_takeWhile⟩

theorem bracketed_iff {first next : Char → Bool} (also : ∀ c, first c = true → next c = true)
    (ends : next '[' = false) {text : Name} : (bracketed first next text).isSome = true ↔
      ∃ head tail digits, text = head :: tail ++ '[' :: (digits ++ [']']) ∧ first head = true ∧
        (∀ c ∈ tail, next c = true) ∧ digits ≠ [] ∧ ∀ c ∈ digits, Char.isDigit c = true := by
  constructor
  · intro found
    unfold bracketed at found
    split at found
    · next head tail rest spanned =>
      obtain ⟨rfl, every⟩ := eq_of_span spanned
      split at found
      · next digit digits numbered =>
        obtain ⟨rfl, numbers⟩ := eq_of_span numbered
        split_ifs at found with starts
        · exact ⟨head, tail, digit :: digits, rfl, starts, fun c member =>
            every c (List.mem_cons_of_mem _ member),
            List.cons_ne_nil _ _, numbers⟩
        · cases found
      · cases found
    · cases found
  · rintro ⟨head, tail, digits, rfl, starts, every, some, numbers⟩
    have spanned : (head :: tail ++ '[' :: (digits ++ [']'])).span next =
        (head :: tail, '[' :: (digits ++ [']'])) :=
      span_until _ (List.forall_mem_cons.mpr ⟨also head starts, every⟩) (by simpa using ends)
    have numbered : (digits ++ [']']).span Char.isDigit = (digits, [']']) :=
      span_until _ numbers (by rintro _ ⟨⟩; rfl)
    cases digits with
    | nil => exact absurd rfl some
    | cons digit digits =>
      simp only [bracketed, spanned, numbered, if_pos starts, Option.isSome_some]

theorem numbered_plain (first next : Char → Bool) : (numberedExpr first next).plain :=
  ⟨trivial, trivial, trivial, ⟨trivial, trivial⟩, trivial⟩

theorem lang_numbered {first next : Char → Bool} (also : ∀ c, first c = true → next c = true)
    (ends : next '[' = false) {text : Name} :
    (numberedExpr first next).Lang newline text ↔ (bracketed first next text).isSome = true := by
  rw [bracketed_iff also ends, numberedExpr, lang_seq (by trivial) (numbered_plain first next).2]
  have digits_plain : (Expr.one Char.isDigit).plus.plain := ⟨trivial, trivial⟩
  constructor
  · rintro ⟨_, _, rfl, ⟨head, rfl, starts⟩, later⟩
    rw [lang_seq (by trivial) (numbered_plain first next).2.2] at later
    obtain ⟨tail, _, rfl, every, later⟩ := later
    rw [lang_cons (numbered_plain first next).2.2.2] at later
    obtain ⟨_, rfl, later⟩ := later
    rw [lang_seq digits_plain (by trivial)] at later
    obtain ⟨digits, _, rfl, number, closes⟩ := later
    obtain ⟨some, numbers⟩ := (lang_plus_single (by trivial) fun _ => lang_one).mp number
    obtain rfl := lang_literal.mp closes
    exact ⟨head, tail, digits, rfl, starts, lang_star_one.mp every, some, numbers⟩
  · rintro ⟨head, tail, digits, rfl, starts, every, some, numbers⟩
    refine ⟨[head], _, rfl, ⟨head, rfl, starts⟩, ?_⟩
    rw [lang_seq (by trivial) (numbered_plain first next).2.2]
    refine ⟨tail, _, rfl, lang_star_one.mpr every, ?_⟩
    rw [lang_cons (numbered_plain first next).2.2.2]
    refine ⟨_, rfl, ?_⟩
    rw [lang_seq digits_plain (by trivial)]
    exact ⟨digits, _, rfl, (lang_plus_single (by trivial) fun _ => lang_one).mpr ⟨some, numbers⟩,
      lang_literal.mpr rfl⟩

theorem lang_level {text : Name} : levelExpr.Lang newline text ↔
    text ≠ [] ∧ ∀ c ∈ text, (c ≠ '\\' ∧ c ≠ hierResourceSeparator) ∧ newline ≠ some c := by
  refine lang_plus_single (by trivial) fun text => ?_
  rw [lang_except]
  simp only [Bool.or_eq_false_iff, decide_eq_false_iff_not]

end

theorem lang_separated {newline : Option Char} {separator : Char} {piece : Expr Char}
    (plain : piece.plain) (apart : ∀ text, piece.Lang newline text → separator ∉ text)
    {text : Name} :
    (Expr.seq piece (.star (.seq (.literal separator) piece))).Lang newline text ↔
      ∀ part ∈ text.splitOn separator, piece.Lang newline part := by
  have more_plain : (Expr.star (Expr.seq (.literal separator) piece)).plain := ⟨trivial, plain⟩
  have one_plain : (Expr.seq (.literal separator) piece).plain := ⟨trivial, plain⟩
  rw [lang_seq plain more_plain]
  simp only [lang_star one_plain, lang_cons plain]
  constructor
  · rintro ⟨first, _, rfl, start, parts, rfl, every⟩
    induction parts generalizing first with
    | nil => simpa [List.splitOn_eq_singleton (apart first start)] using start
    | cons part parts ih =>
      obtain ⟨⟨tail, rfl, here⟩, later⟩ := List.forall_mem_cons.mp every
      rw [List.flatten_cons, List.cons_append,
        List.splitOn_append_cons_self_of_not_mem (apart first start)]
      exact List.forall_mem_cons.mpr ⟨start, ih tail here later⟩
  · intro every
    have joined : [separator].intercalate (text.splitOn separator) = text :=
      List.intercalate_splitOn separator
    obtain ⟨first, rest, split⟩ := List.exists_cons_of_ne_nil (List.splitOn_ne_nil separator text)
    rw [split] at joined every
    obtain ⟨start, later⟩ := List.forall_mem_cons.mp every
    refine ⟨first, (rest.map (separator :: ·)).flatten, ?_, start, rest.map (separator :: ·),
      rfl, ?_⟩
    · rw [← joined]
      clear joined every start split
      induction rest generalizing first with
      | nil => simp
      | cons next rest ih =>
        rw [List.intercalate_cons_cons, ih next (List.forall_mem_cons.mp later).2]
        simp
    · intro part member
      obtain ⟨tail, inside, rfl⟩ := List.mem_map.mp member
      exact ⟨tail, rfl, later tail inside⟩

theorem lang_separated_twice {newline : Option Char} {separator : Char} {piece : Expr Char}
    (plain : piece.plain) (apart : ∀ text, piece.Lang newline text → separator ∉ text)
    {text : Name} :
    (Expr.seq piece (.plus (.seq (.literal separator) piece))).Lang newline text ↔
      1 < (text.splitOn separator).length ∧ ∀ part ∈ text.splitOn separator,
      piece.Lang newline part := by
  have one_plain : (Expr.seq (.literal separator) piece).plain := ⟨trivial, plain⟩
  have more_plain : (Expr.star (Expr.seq (.literal separator) piece)).plain := one_plain
  have two_plain : (Expr.plus (Expr.seq (.literal separator) piece)).plain := ⟨one_plain, one_plain⟩
  rw [lang_seq plain two_plain]
  simp only [Expr.plus, lang_seq one_plain more_plain, lang_cons plain]
  constructor
  · rintro ⟨first, _, rfl, start, _, rest, rfl, ⟨next, rfl, here⟩, later⟩
    have behind : (Expr.seq piece (.star (.seq (.literal separator) piece))).Lang newline
        (next ++ rest) :=
      (lang_seq plain more_plain).mpr ⟨next, rest, rfl, here, later⟩
    rw [List.cons_append, List.splitOn_append_cons_self_of_not_mem (apart first start)]
    refine ⟨?_, List.forall_mem_cons.mpr ⟨start, (lang_separated plain apart).mp behind⟩⟩
    have some := List.length_pos_of_ne_nil (List.splitOn_ne_nil separator (next ++ rest))
    rw [List.length_cons]
    omega
  · rintro ⟨several, every⟩
    have joined : [separator].intercalate (text.splitOn separator) = text :=
      List.intercalate_splitOn separator
    have clean : ∀ part ∈ text.splitOn separator, separator ∉ part :=
      fun part => not_mem_of_mem_splitOn
    obtain ⟨first, second, rest, split⟩ : ∃ first second rest,
        text.splitOn separator = first :: second :: rest := by
      cases split : text.splitOn separator with
      | nil =>
        rw [split] at several
        exact absurd several (by decide)
      | cons first others =>
        cases others with
        | nil =>
          rw [split] at several
          exact absurd several (Nat.lt_irrefl 1)
        | cons second rest => exact ⟨first, second, rest, rfl⟩
    rw [split] at joined every clean
    obtain ⟨start, later⟩ := List.forall_mem_cons.mp every
    have again : ([separator].intercalate (second :: rest)).splitOn separator = second :: rest :=
      List.splitOn_intercalate separator
        (fun part member => clean part (List.mem_cons_of_mem _ member)) (by simp)
    have behind := (lang_separated plain apart).mpr (again ▸ later)
    obtain ⟨next, tail, cut, here, more⟩ := (lang_seq plain more_plain).mp behind
    refine ⟨first, separator :: (next ++ tail), ?_, start, separator :: next, tail, rfl,
      ⟨next, rfl, here⟩, more⟩
    rw [← joined, List.intercalate_cons_cons, cut]
    simp

theorem identifier_alphanum {text : Name} (named : identifier text = true) : ∀ c ∈ text,
    c.isAlphanum = true := by
  cases text with
  | nil => cases named
  | cons first rest =>
    obtain ⟨alpha, every⟩ := (Bool.and_eq_true _ _).mp named
    refine List.forall_mem_cons.mpr ⟨?_, List.all_eq_true.mp every⟩
    simp [Char.isAlphanum, alpha]

theorem identifier_plain : identifierExpr.plain := ⟨trivial, trivial⟩

theorem level_plain : levelExpr.plain := ⟨trivial, trivial⟩

theorem lang_set {newline : Option Char} {text : Name} :
    (Expr.seq identifierExpr (.plus (.seq (.literal resourceSetSeparator) identifierExpr))).Lang
      newline text ↔
        matchSet text = true := by
  have apart : ∀ text, identifierExpr.Lang newline text → resourceSetSeparator ∉ text :=
      fun text named inside =>
    absurd (identifier_alphanum (lang_identifier.mp named) _ inside) (by decide)
  rw [lang_separated_twice identifier_plain apart]
  simp only [lang_identifier, matchSet, Bool.and_eq_true, decide_eq_true_eq, List.all_eq_true]

theorem hierExpr_plain : hierExpr.plain := ⟨trivial, level_plain, trivial, level_plain⟩

theorem matchHier_iff {text : Name} : matchHier text = true ↔ ∃ tail,
    text = hierResourceSeparator :: tail ∧
    ∀ part ∈ tail.splitOn hierResourceSeparator, part ≠ [] ∧ ∀ c ∈ part, c ≠ '\\' := by
  cases text with
  | nil => simp [matchHier]
  | cons first rest =>
    simp only [matchHier, Bool.and_eq_true, decide_eq_true_eq, List.all_eq_true, List.cons.injEq]
    constructor
    · rintro ⟨rfl, every⟩
      exact ⟨rest, ⟨rfl, rfl⟩, every⟩
    · rintro ⟨_, ⟨rfl, rfl⟩, every⟩
      exact ⟨rfl, every⟩

theorem lang_hier {newline : Option Char} {text : Name} : hierExpr.Lang newline text ↔
    matchHier text = true ∧ ∀ c ∈ text, c ≠ hierResourceSeparator → newline ≠ some c := by
  have apart : ∀ text, levelExpr.Lang newline text → hierResourceSeparator ∉ text :=
      fun text level inside =>
    ((lang_level.mp level).2 _ inside).1.2 rfl
  have tail_plain : (Expr.seq levelExpr
      (.star (.seq (.literal hierResourceSeparator) levelExpr))).plain :=
    hierExpr_plain.2
  rw [hierExpr, lang_cons tail_plain, matchHier_iff]
  simp only [lang_separated level_plain apart, lang_level]
  constructor
  · rintro ⟨tail, rfl, every⟩
    refine ⟨⟨tail, rfl, fun part member => ?_⟩, fun c member other => ?_⟩
    · exact ⟨(every part member).1, fun c inside => ((every part member).2 c inside).1.1⟩
    · have behind := (List.mem_cons.mp member).resolve_left other
      obtain ⟨part, inside, found⟩ := exists_mem_splitOn behind other
      exact ((every part inside).2 c found).2
  · rintro ⟨⟨tail, rfl, every⟩, lined⟩
    refine ⟨tail, rfl, fun part member => ⟨(every part member).1, fun c inside => ?_⟩⟩
    have other : c ≠ hierResourceSeparator := by
      rintro rfl
      exact not_mem_of_mem_splitOn member inside
    have here := mem_of_mem_splitOn member c inside
    exact ⟨⟨(every part member).2 c inside, other⟩, lined c (List.mem_cons_of_mem _ here) other⟩

structure ReadBy (body : Expr Char) (read : Name → Bool) : Prop where
  plain : body.plain
  free : ∀ text, body.Lang none text ↔ read text = true
  lined : ∀ text, body.Lang (some '\n') text ↔ read text = true ∧ '\n' ∉ text

theorem ReadBy.exec_none {body : Expr Char} {read : Name → Bool} (reads : ReadBy body read)
    (name : Name) :
    body.anchored.exec none name ↔ read name = true := by
  rw [exec_anchored_none reads.plain, reads.free]

theorem ReadBy.exec_lines {body : Expr Char} {read : Name → Bool} (reads : ReadBy body read)
    (name : Name) :
    body.anchored.exec (some '\n') name ↔ ∃ line ∈ rsrcLines name, read line = true := by
  rw [exec_anchored_some reads.plain fun line matched => ((reads.lined line).mp matched).2]
  refine exists_congr fun line => and_congr_right fun member => ?_
  rw [reads.lined]
  exact and_iff_left (not_mem_of_mem_splitOn member)

theorem readBy_of_lang {body : Expr Char} {read : Name → Bool} (plain : body.plain)
    (lang : ∀ newline text, body.Lang newline text ↔ read text = true)
    (lined : ∀ text, read text = true → '\n' ∉ text) : ReadBy body read where
  plain := plain
  free := lang none
  lined text := by
    rw [lang]
    exact ⟨fun holds => ⟨holds, lined text holds⟩, fun both => both.1⟩

theorem identifier_lined {text : Name} (named : identifier text = true) : '\n' ∉ text :=
  fun inside => absurd (identifier_alphanum named _ inside) (by decide)

theorem readBy_identifier : ReadBy identifierExpr identifier :=
  readBy_of_lang identifier_plain (fun _ _ => lang_identifier) fun _ => identifier_lined

theorem readBy_default :
    ReadBy (.word '_' ['R', 'E', 'S', 'O', 'U', 'R', 'C', 'E']) fun text =>
    text = defaultResourceName := by
  refine readBy_of_lang ?_ (fun _ text => ?_) fun text same => ?_
  · simp [Expr.word, Expr.literal, Expr.plain]
  · rw [lang_word, decide_eq_true_eq]
    rfl
  · rw [of_decide_eq_true same]
    decide

theorem bracketed_lined {first next : Char → Bool} (also : ∀ c, first c = true → next c = true)
    (ends : next '[' = false) (lined : next '\n' = false) {text : Name}
    (found : (bracketed first next text).isSome = true) : '\n' ∉ text := by
  obtain ⟨head, tail, digits, rfl, starts, every, _, numbers⟩ := (bracketed_iff also ends).mp found
  intro inside
  simp only [List.cons_append, List.mem_cons, List.mem_append, List.not_mem_nil, or_false] at inside
  obtain here | here | here | here | here := inside
  · rw [also '\n' (here ▸ starts)] at lined
    cases lined
  · rw [every _ here] at lined
    cases lined
  · cases here
  · exact absurd (numbers _ here) (by decide)
  · cases here

theorem alphanum_of_alpha (c : Char) (alpha : c.isAlpha = true) : c.isAlphanum = true := by
  simp [Char.isAlphanum, alpha]

theorem timestampNext_of_first (c : Char) (first : timestampFirst c = true) :
    timestampNext c = true := by
  unfold timestampFirst timestampNext at *
  simp only [Bool.or_eq_true, decide_eq_true_eq] at first ⊢
  obtain (here | here) | here := first
  · simp [here]
  · simp [here]
  · simp [alphanum_of_alpha c here]

theorem matchNumeric_lined {text : Name} (found : (matchNumeric text).isSome = true) :
    '\n' ∉ text :=
  bracketed_lined alphanum_of_alpha (by decide) (by decide) found

theorem readBy_numeric : ReadBy (numberedExpr Char.isAlpha Char.isAlphanum) fun text =>
    (matchNumeric text).isSome :=
  readBy_of_lang (numbered_plain _ _) (fun _ _ => lang_numbered alphanum_of_alpha (by decide))
      fun _ =>
    matchNumeric_lined

theorem matchSet_lined {text : Name} (found : matchSet text = true) : '\n' ∉ text := by
  intro inside
  simp only [matchSet, Bool.and_eq_true, List.all_eq_true] at found
  obtain ⟨part, member, here⟩ := exists_mem_splitOn inside (by decide : '\n' ≠ resourceSetSeparator)
  exact identifier_lined (found.2 part member) here

theorem readBy_set :
    ReadBy (.seq identifierExpr (.plus (.seq (.literal resourceSetSeparator) identifierExpr)))
    matchSet :=
  readBy_of_lang ⟨identifier_plain, ⟨trivial, identifier_plain⟩, trivial, identifier_plain⟩
    (fun _ _ => lang_set) fun _ => matchSet_lined

theorem readBy_hier : ReadBy hierExpr matchHier where
  plain := hierExpr_plain
  free text := by
    rw [lang_hier]
    exact and_iff_left fun _ _ _ same => by cases same
  lined text := by
    rw [lang_hier]
    refine and_congr_right fun _ => ⟨fun every inside => ?_, fun absent c inside _ same => ?_⟩
    · exact every '\n' inside (by decide) rfl
    · rw [Option.some.inj same] at absent
      exact absent inside

theorem matchSequence_iff {text : Name} : (matchSequence text).isSome = true ↔
    ∃ kind rest, text = '_' :: kind :: '_' :: rest ∧ (kind = 's' || kind = 'S') = true ∧
      (matchNumeric rest).isSome = true := by
  constructor
  · intro found
    unfold matchSequence at found
    split at found
    · next kind rest =>
      split_ifs at found with chosen
      · exact ⟨kind, rest, rfl, by simpa using chosen, found⟩
      · cases found
    · cases found
  · rintro ⟨kind, rest, rfl, chosen, found⟩
    have chosen' : kind = 's' ∨ kind = 'S' := by simpa using chosen
    simpa [matchSequence, chosen'] using found

theorem matchSequence_lined {text : Name} (found : (matchSequence text).isSome = true) :
    '\n' ∉ text := by
  obtain ⟨kind, rest, rfl, chosen, later⟩ := matchSequence_iff.mp found
  intro inside
  simp only [List.mem_cons] at inside
  obtain here | rfl | here | here := inside
  · cases here
  · cases chosen
  · cases here
  · exact matchNumeric_lined later here

theorem readBy_sequence : ReadBy (.seq (.literal '_') (.seq (.one fun c => c = 's' || c = 'S')
    (.seq (.literal '_') (numberedExpr Char.isAlpha Char.isAlphanum)))) fun text =>
    (matchSequence text).isSome := by
  have inner : (Expr.seq (.literal '_') (numberedExpr Char.isAlpha Char.isAlphanum)).plain :=
    ⟨trivial, numbered_plain _ _⟩
  have middle : (Expr.seq (.one fun c => c = 's' || c = 'S')
      (.seq (.literal '_') (numberedExpr Char.isAlpha Char.isAlphanum))).plain := ⟨trivial, inner⟩
  refine readBy_of_lang ⟨trivial, trivial, inner⟩ (fun newline text => ?_) fun _ =>
    matchSequence_lined
  rw [matchSequence_iff, lang_cons middle]
  simp only [lang_seq (by trivial : (Expr.one fun c => c = 's' || c = 'S').plain) inner,
    lang_cons (numbered_plain Char.isAlpha Char.isAlphanum), lang_one]
  constructor
  · rintro ⟨_, rfl, _, _, rfl, ⟨kind, rfl, chosen⟩, rest, rfl, numbered⟩
    exact ⟨kind, rest, rfl, chosen, (lang_numbered alphanum_of_alpha (by decide)).mp numbered⟩
  · rintro ⟨kind, rest, rfl, chosen, found⟩
    exact ⟨_, rfl, [kind], _, rfl, ⟨kind, rfl, chosen⟩, rest, rfl,
      (lang_numbered alphanum_of_alpha (by decide)).mpr found⟩

theorem matchTimestamp_iff {text : Name} : (matchTimestamp text).isSome = true ↔
    ∃ rest, text = '_' :: 't' :: '_' :: rest ∧
    (bracketed timestampFirst timestampNext rest).isSome = true := by
  constructor
  · intro found
    unfold matchTimestamp at found
    split at found
    · next rest => exact ⟨rest, rfl, found⟩
    · cases found
  · rintro ⟨rest, rfl, found⟩
    exact found

theorem matchTimestamp_lined {text : Name} (found : (matchTimestamp text).isSome = true) :
    '\n' ∉ text := by
  obtain ⟨rest, rfl, later⟩ := matchTimestamp_iff.mp found
  intro inside
  simp only [List.mem_cons] at inside
  obtain here | here | here | here := inside
  · cases here
  · cases here
  · cases here
  · exact bracketed_lined timestampNext_of_first (by decide) (by decide) later here

theorem readBy_timestamp : ReadBy (.seq (.literal '_') (.seq (.literal 't') (.seq (.literal '_')
    (numberedExpr timestampFirst timestampNext)))) fun text => (matchTimestamp text).isSome := by
  have inner : (Expr.seq (.literal '_') (numberedExpr timestampFirst timestampNext)).plain :=
    ⟨trivial, numbered_plain _ _⟩
  have middle : (Expr.seq (.literal 't')
      (.seq (.literal '_') (numberedExpr timestampFirst timestampNext))).plain :=
    ⟨trivial, inner⟩
  refine readBy_of_lang ⟨trivial, trivial, inner⟩ (fun newline text => ?_) fun _ =>
    matchTimestamp_lined
  rw [matchTimestamp_iff, lang_cons middle]
  simp only [lang_cons inner, lang_cons (numbered_plain timestampFirst timestampNext),
    lang_numbered timestampNext_of_first (by decide)]
  constructor
  · rintro ⟨_, rfl, _, rfl, rest, rfl, found⟩
    exact ⟨rest, rfl, found⟩
  · rintro ⟨rest, rfl, found⟩
    exact ⟨_, rfl, _, rfl, rest, rfl, found⟩

def InGrammar (type : RsrcType) (name : Name) : Prop := (rsrcExpr type).exec none name

theorem inGrammar_iff {type : RsrcType} (typed : type ≠ .null) {name : Name} :
    InGrammar type name ↔ matchType type name = true := by
  cases type with
  | null => exact absurd rfl typed
  | simple =>
    rw [InGrammar, rsrcExpr, exec_alt, readBy_default.exec_none, readBy_identifier.exec_none]
    simp only [matchType, matchSimple, Bool.or_eq_true]
  | numeric => exact readBy_numeric.exec_none name
  | set => exact readBy_set.exec_none name
  | hier => exact readBy_hier.exec_none name
  | sequence => exact readBy_sequence.exec_none name
  | timestamp => exact readBy_timestamp.exec_none name

theorem exec_newline_iff {type : RsrcType} (typed : type ≠ .null) {name : Name} :
    (rsrcExpr type).exec (some '\n') name ↔ (rsrcLines name).any (matchType type) = true := by
  rw [List.any_eq_true]
  cases type with
  | null => exact absurd rfl typed
  | simple =>
    rw [rsrcExpr, exec_alt, readBy_default.exec_lines, readBy_identifier.exec_lines]
    simp only [matchType, matchSimple, Bool.or_eq_true, and_or_left, exists_or]
  | numeric => exact readBy_numeric.exec_lines name
  | set => exact readBy_set.exec_lines name
  | hier => exact readBy_hier.exec_lines name
  | sequence => exact readBy_sequence.exec_lines name
  | timestamp => exact readBy_timestamp.exec_lines name

def nameKind (name : Name) : RsrcType :=
  if name.head? = some hierResourceSeparator then .hier
  else if name.head? = some '_' then
    if name[1]? = some 'R' then .simple else if name[1]? = some 't' then .timestamp else .sequence
  else if '[' ∈ name then .numeric
  else if resourceSetSeparator ∈ name then .set
  else .simple

theorem nameKind_of_alphanum {name : Name}
    (other : ∀ c ∈ name, c.isAlphanum = true ∨ c = '.' ∨ c = '[' ∨ c = ']') :
    nameKind name = if '[' ∈ name then .numeric else if resourceSetSeparator ∈
    name then .set else .simple := by
  have head : ∀ c, c = hierResourceSeparator ∨ c = '_' → name.head? ≠ some c := by
    intro c special first
    obtain alphanum | rfl | rfl | rfl := other c (List.mem_of_mem_head? first)
    · obtain rfl | rfl := special
      · exact absurd alphanum (by decide)
      · exact absurd alphanum (by decide)
    · exact absurd special (by decide)
    · exact absurd special (by decide)
    · exact absurd special (by decide)
  rw [nameKind, if_neg (head _ (.inl rfl)), if_neg (head _ (.inr rfl))]

theorem nameKind_of_matchType {type : RsrcType} (typed : type ≠ .null) {name : Name}
    (matched : matchType type name = true) : nameKind name = type := by
  cases type with
  | null => exact absurd rfl typed
  | simple =>
    simp only [matchType, matchSimple, Bool.or_eq_true, decide_eq_true_eq] at matched
    obtain rfl | named := matched
    · decide
    · have every := identifier_alphanum named
      have absent : ∀ c, c.isAlphanum = false → c ∉ name := by
        intro c special member
        rw [every c member] at special
        cases special
      rw [nameKind_of_alphanum fun c member => .inl (every c member), if_neg (absent _ (by decide)),
        if_neg (absent _ (by decide))]
  | numeric =>
    obtain ⟨head, tail, digits, rfl, starts, every, _, numbers⟩ :=
      (bracketed_iff alphanum_of_alpha (by decide)).mp matched
    rw [nameKind_of_alphanum, if_pos (by simp)]
    intro c member
    simp only [List.cons_append, List.mem_cons, List.mem_append, List.not_mem_nil, or_false]
      at member
    obtain rfl | here | rfl | here | rfl := member
    · exact .inl (alphanum_of_alpha _ starts)
    · exact .inl (every c here)
    · simp
    · exact .inl (by simp [Char.isAlphanum, numbers c here])
    · simp
  | set =>
    simp only [matchType, matchSet, Bool.and_eq_true, decide_eq_true_eq, List.all_eq_true]
      at matched
    obtain ⟨several, every⟩ := matched
    have symbols : ∀ c ∈ name, c ≠ resourceSetSeparator → c.isAlphanum = true := by
      intro c member other
      obtain ⟨part, inside, here⟩ := exists_mem_splitOn member other
      exact identifier_alphanum (every part inside) c here
    have marked : resourceSetSeparator ∈ name := by
      by_contra absent
      rw [List.splitOn_eq_singleton absent] at several
      simp at several
    rw [nameKind_of_alphanum, if_neg, if_pos marked]
    · exact fun inside => absurd (symbols _ inside (by decide)) (by decide)
    · intro c member
      by_cases other : c = resourceSetSeparator
      · exact .inr (.inl other)
      · exact .inl (symbols c member other)
  | hier =>
    obtain ⟨tail, rfl, _⟩ := matchHier_iff.mp matched
    rfl
  | sequence =>
    obtain ⟨kind, rest, rfl, chosen, _⟩ := matchSequence_iff.mp matched
    simp only [Bool.or_eq_true, decide_eq_true_eq] at chosen
    obtain rfl | rfl := chosen <;> rfl
  | timestamp =>
    obtain ⟨rest, rfl, _⟩ := matchTimestamp_iff.mp matched
    rfl

theorem mem_rsrcTypes {type : RsrcType} : type ∈ rsrcTypes ↔ type ≠ .null := by
  cases type <;> decide

theorem rsrcGetType_null_iff {name : Name} :
    rsrcGetType name = .null ↔ ∀ line ∈ rsrcLines name, ∀ type ∈ rsrcTypes,
    matchType type line = false := by
  have none : rsrcGetType name = .null ↔
      (rsrcTypes.find? fun type => (rsrcLines name).any (matchType type)) = none := by
    unfold rsrcGetType
    cases found : rsrcTypes.find? fun type => (rsrcLines name).any (matchType type) with
    | none => simp
    | some type => simpa using mem_rsrcTypes.mp (List.mem_of_find?_eq_some found)
  rw [none, List.find?_eq_none]
  constructor
  · intro every line member type listed
    have absent := every type listed
    simp only [List.any_eq_true, not_exists, not_and, Bool.not_eq_true] at absent
    exact absent line member
  · intro every type listed
    simp only [List.any_eq_true, not_exists, not_and, Bool.not_eq_true]
    exact fun line member => every line member type listed

theorem rsrcGetType_hier_iff {name : Name} : rsrcGetType name = .hier ↔
    (∃ line ∈ rsrcLines name, matchHier line = true) ∧
      ∀ line ∈ rsrcLines name, ∀ type ∈ [RsrcType.simple, .numeric, .set],
      matchType type line = false := by
  have earlier : ∀ type, (rsrcLines name).any (matchType type) = false ↔
      ∀ line ∈ rsrcLines name, matchType type line = false := by
    intro type
    simp [List.any_eq_false]
  have hier : (rsrcLines name).any (matchType .hier) = true ↔ ∃ line ∈ rsrcLines name,
      matchHier line = true :=
    List.any_eq_true
  have three : (∀ line ∈ rsrcLines name, ∀ type ∈ [RsrcType.simple, .numeric, .set],
    matchType type line = false) ↔
      (rsrcLines name).any (matchType .simple) = false ∧
        (rsrcLines name).any (matchType .numeric) = false ∧
        (rsrcLines name).any (matchType .set) = false := by
    simp only [earlier, List.forall_mem_cons, List.not_mem_nil, false_implies, implies_true,
      and_true, forall_and]
  rw [← hier, three]
  simp only [rsrcGetType, rsrcTypes, List.find?_cons]
  cases (rsrcLines name).any (matchType .simple) <;>
    cases (rsrcLines name).any (matchType .numeric) <;>
    cases (rsrcLines name).any (matchType .set) <;> cases (rsrcLines name).any (matchType .hier) <;>
    cases (rsrcLines name).any (matchType .sequence) <;>
      cases (rsrcLines name).any (matchType .timestamp) <;> simp

structure NameTyped (name : Name) : Prop where
  typed : ∀ type ≠ .null, rsrcGetType name = type ↔ InGrammar type name
  single : ∀ type ≠ .null, ∀ other ≠ .null, InGrammar type name → InGrammar other name →
    type = other
  null : rsrcGetType name = .null ↔ ∀ type ≠ .null, ¬InGrammar type name

def NameUniform (name : Name) : Prop :=
  '\n' ∉ name ∨
    if matchHier name then (∃ line ∈ rsrcLines name, matchHier line = true) ∧
      ∀ line ∈ rsrcLines name, ∀ type ∈ [RsrcType.simple, .numeric, .set],
      matchType type line = false
    else ∀ line ∈ rsrcLines name, ∀ type ∈ rsrcTypes, matchType type line = false

theorem inGrammar_single {name : Name} {type other : RsrcType} (typed : type ≠ .null)
    (typed' : other ≠ .null) (inside : InGrammar type name) (inside' : InGrammar other name) :
    type = other :=
  (nameKind_of_matchType typed ((inGrammar_iff typed).mp inside)).symm.trans
    (nameKind_of_matchType typed' ((inGrammar_iff typed').mp inside'))

theorem matchType_newline {type : RsrcType} (typed : type ≠ .null) {name : Name}
    (matched : matchType type name = true) (lined : '\n' ∈ name) : type = .hier := by
  cases type with
  | null => exact absurd rfl typed
  | hier => rfl
  | simple =>
    simp only [matchType, matchSimple, Bool.or_eq_true, decide_eq_true_eq] at matched
    obtain rfl | named := matched
    · exact absurd lined (by decide)
    · exact absurd lined (identifier_lined named)
  | numeric => exact absurd lined (matchNumeric_lined matched)
  | set => exact absurd lined (matchSet_lined matched)
  | sequence => exact absurd lined (matchSequence_lined matched)
  | timestamp => exact absurd lined (matchTimestamp_lined matched)

theorem nameTyped_of_iff {name : Name}
    (typed : ∀ type ≠ .null, rsrcGetType name = type ↔ matchType type name = true)
    (null : rsrcGetType name = .null ↔ ∀ type ≠ .null, matchType type name = false) :
    NameTyped name where
  typed type other := by rw [typed type other, inGrammar_iff other]
  single _ typed _ typed' := inGrammar_single typed typed'
  null := by
    rw [null]
    refine forall_congr' fun type => forall_congr' fun other => ?_
    rw [inGrammar_iff other, Bool.not_eq_true]

theorem nameTyped_of_single {name : Name} (single : '\n' ∉ name) : NameTyped name := by
  have lines : rsrcLines name = [name] := List.splitOn_eq_singleton single
  have null : rsrcGetType name = .null ↔ ∀ type ≠ .null, matchType type name = false := by
    rw [rsrcGetType_null_iff, lines]
    simp only [List.mem_singleton, forall_eq, mem_rsrcTypes]
  have line : ∀ type ≠ .null, rsrcGetType name = type → matchType type name = true := by
    intro type typed found
    obtain ⟨line, member, matched⟩ := rsrcGetType_line typed found
    rw [lines, List.mem_singleton] at member
    rwa [← member]
  refine nameTyped_of_iff (fun type typed => ⟨line type typed, fun matched => ?_⟩) null
  have some : rsrcGetType name ≠ .null := by
    intro none
    rw [null.mp none type typed] at matched
    cases matched
  exact (nameKind_of_matchType some (line _ some rfl)).symm.trans
    (nameKind_of_matchType typed matched)

theorem resource_name_grammar_iff (name : Name) : NameTyped name ↔ NameUniform name := by
  by_cases lined : '\n' ∈ name
  · rw [NameUniform, or_iff_right (not_not_intro lined)]
    have hier : ∀ type ≠ .null, matchType type name = true → type = .hier :=
      fun type typed matched => matchType_newline typed matched lined
    split_ifs with path
    · rw [← rsrcGetType_hier_iff]
      constructor
      · intro typed
        exact (typed.typed .hier (by decide)).mpr ((inGrammar_iff (by decide)).mpr path)
      · intro found
        refine nameTyped_of_iff (fun type typed => ⟨?_, fun matched => ?_⟩)
          ⟨fun none => ?_, fun none => ?_⟩
        · rintro rfl
          rw [found]
          exact path
        · rw [hier type typed matched, found]
        · rw [found] at none
          cases none
        · have absent := none .hier (by decide)
          rw [matchType, path] at absent
          cases absent
    · have absent : ∀ type ≠ .null, matchType type name = false := by
        intro type typed
        by_contra matched
        rw [Bool.not_eq_false] at matched
        have only := hier type typed matched
        rw [only] at matched
        exact path matched
      rw [← rsrcGetType_null_iff]
      constructor
      · intro typed
        refine typed.null.mpr fun type other inside => ?_
        rw [inGrammar_iff other, absent type other] at inside
        cases inside
      · intro none
        refine nameTyped_of_iff (fun type typed => ⟨fun found => ?_, fun matched => ?_⟩)
          ⟨fun _ => absent, fun _ => none⟩
        · exact absurd (found.symm.trans none) typed
        · rw [absent type typed] at matched
          cases matched
  · exact iff_of_true (nameTyped_of_single lined) (.inl lined)

theorem second_line_typed : let name := ['a', ' ', 'b', '\n', 'c']
    rsrcGetType name = .simple ∧ (∀ type ≠ .null, ¬InGrammar type name) ∧ ¬NameTyped name := by
  have none : ∀ type ≠ .null, ¬InGrammar type ['a', ' ', 'b', '\n', 'c'] := by
    intro type typed
    rw [inGrammar_iff typed]
    cases type <;> decide
  refine ⟨by decide, none, fun typed => ?_⟩
  exact absurd (typed.null.mpr none) (by decide)

end Flom
