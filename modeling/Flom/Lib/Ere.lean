import Mathlib.Data.List.Basic
import Mathlib.Tactic.Common

set_option autoImplicit false

namespace Ere

inductive Expr (α : Type) where
  | one (p : α → Bool)
  | except (p : α → Bool)
  | seq (first second : Expr α)
  | alt (left right : Expr α)
  | star (body : Expr α)
  | bol
  | eol

variable {α : Type}

/-- The expression matches `mid` where it stands. A newline, when there is one, ends a line for
the two anchors and is matched by no complemented list. -/
def Expr.Match (newline : Option α) : Expr α → List α → List α → List α → Prop
  | .one p, _, mid, _ => ∃ c, mid = [c] ∧ p c = true
  | .except p, _, mid, _ => ∃ c, mid = [c] ∧ p c = false ∧ newline ≠ some c
  | .seq first second, pre, mid, post => ∃ left right, mid = left ++ right ∧
      first.Match newline pre left (right ++ post) ∧ second.Match newline (pre ++ left) right post
  | .alt left right, pre, mid, post =>
    left.Match newline pre mid post ∨ right.Match newline pre mid post
  | .star body, pre, mid, post => ∃ parts : List (List α), mid = parts.flatten ∧
      ∀ before part after, parts = before ++ part :: after →
        body.Match newline (pre ++ before.flatten) part (after.flatten ++ post)
  | .bol, pre, mid, _ => mid = [] ∧ (pre = [] ∨ ∃ c, newline = some c ∧ pre.getLast? = some c)
  | .eol, _, mid, post => mid = [] ∧ (post = [] ∨ ∃ c, newline = some c ∧ post.head? = some c)

/-- regexec without a place for the matches. -/
def Expr.exec (newline : Option α) (expr : Expr α) (text : List α) : Prop :=
  ∃ pre mid post, text = pre ++ mid ++ post ∧ expr.Match newline pre mid post

def Expr.plus (body : Expr α) : Expr α := .seq body (.star body)

def Expr.anchored (body : Expr α) : Expr α := .seq .bol (.seq body .eol)

def Expr.literal [BEq α] (symbol : α) : Expr α := .one (· == symbol)

def Expr.word [BEq α] (first : α) : List α → Expr α
  | [] => .literal first
  | next :: rest => .seq (.literal first) (.word next rest)

def Expr.plain : Expr α → Prop
  | .one _ | .except _ => True
  | .seq left right | .alt left right => left.plain ∧ right.plain
  | .star body => body.plain
  | .bol | .eol => False

def Expr.Lang (newline : Option α) (expr : Expr α) (text : List α) : Prop :=
  expr.Match newline [] text []

variable {newline : Option α}

theorem match_plain {expr : Expr α} (plain : expr.plain) (pre mid post : List α) :
    expr.Match newline pre mid post ↔ expr.Lang newline mid := by
  unfold Expr.Lang
  induction expr generalizing pre mid post with
  | one p | except p => rfl
  | seq first second one two =>
    simp only [Expr.Match, List.append_nil, List.nil_append]
    refine exists_congr fun left => exists_congr fun right => and_congr_right fun _ => ?_
    rw [one plain.1 pre, two plain.2 (pre ++ left), one plain.1 [] left right, two plain.2 left]
  | alt left right one two => exact or_congr (one plain.1 pre mid post) (two plain.2 pre mid post)
  | star body ih =>
    simp only [Expr.Match]
    refine exists_congr fun parts => and_congr_right fun _ => ?_
    refine forall_congr' fun before => forall_congr' fun part => forall_congr' fun after => ?_
    rw [ih plain, ih plain ([] ++ before.flatten)]
  | bol | eol => cases plain

theorem lang_one {p : α → Bool} {text : List α} : (Expr.one p).Lang newline text ↔ ∃ c, text = [c] ∧
    p c = true :=
  Iff.rfl

theorem lang_except {p : α → Bool} {text : List α} :
    (Expr.except p).Lang newline text ↔ ∃ c, text = [c] ∧ p c = false ∧ newline ≠ some c :=
  Iff.rfl

theorem lang_literal [BEq α] [LawfulBEq α] {symbol : α} {text : List α} :
    (Expr.literal symbol).Lang newline text ↔ text = [symbol] := by
  simp [Expr.literal, lang_one]

theorem lang_seq {first second : Expr α} (plain : first.plain) (plain' : second.plain)
    {text : List α} :
    (Expr.seq first second).Lang newline text ↔
      ∃ left right, text = left ++ right ∧ first.Lang newline left ∧ second.Lang newline right := by
  simp only [Expr.Lang, Expr.Match, List.append_nil, List.nil_append]
  refine exists_congr fun left => exists_congr fun right => and_congr_right fun _ => ?_
  rw [match_plain plain, match_plain plain']
  rfl

theorem lang_cons [BEq α] [LawfulBEq α] {symbol : α} {rest : Expr α} (plain : rest.plain)
    {text : List α} :
    (Expr.seq (.literal symbol) rest).Lang newline text ↔ ∃ tail, text = symbol :: tail ∧
    rest.Lang newline tail := by
  rw [lang_seq (by trivial) plain]
  constructor
  · rintro ⟨left, right, rfl, single, later⟩
    rw [lang_literal.mp single]
    exact ⟨right, rfl, later⟩
  · rintro ⟨tail, rfl, later⟩
    exact ⟨[symbol], tail, rfl, lang_literal.mpr rfl, later⟩

theorem lang_star {body : Expr α} (plain : body.plain) {text : List α} :
    (Expr.star body).Lang newline text ↔
      ∃ parts : List (List α), text = parts.flatten ∧ ∀ part ∈ parts, body.Lang newline part := by
  simp only [Expr.Lang, Expr.Match]
  refine exists_congr fun parts => and_congr_right fun _ => ?_
  constructor
  · intro every part member
    obtain ⟨before, after, split⟩ := List.append_of_mem member
    exact (match_plain plain _ _ _).mp (every before part after split)
  · rintro every before part after rfl
    exact (match_plain plain _ _ _).mpr (every part (by simp))

theorem lang_star_single {body : Expr α} (plain : body.plain) {p : α → Prop}
    (single : ∀ text, body.Lang newline text ↔ ∃ c, text = [c] ∧ p c) {text : List α} :
    (Expr.star body).Lang newline text ↔ ∀ c ∈ text, p c := by
  rw [lang_star plain]
  constructor
  · rintro ⟨parts, rfl, every⟩ c member
    obtain ⟨part, inside, here⟩ := List.mem_flatten.mp member
    obtain ⟨only, rfl, holds⟩ := (single part).mp (every part inside)
    rwa [List.mem_singleton.mp here]
  · intro every
    refine ⟨text.map ([·]), ?_, fun part member => ?_⟩
    · rw [← List.flatMap_def, List.flatMap_singleton']
    · obtain ⟨c, inside, rfl⟩ := List.mem_map.mp member
      exact (single [c]).mpr ⟨c, rfl, every c inside⟩

theorem lang_star_one {p : α → Bool} {text : List α} :
    (Expr.star (.one p)).Lang newline text ↔ ∀ c ∈ text, p c = true :=
  lang_star_single (by trivial) fun _ => lang_one

theorem lang_plus_single {body : Expr α} (plain : body.plain) {p : α → Prop}
    (single : ∀ text, body.Lang newline text ↔ ∃ c, text = [c] ∧ p c) {text : List α} :
    body.plus.Lang newline text ↔ text ≠ [] ∧ ∀ c ∈ text, p c := by
  have many_plain : body.star.plain := plain
  rw [Expr.plus, lang_seq plain many_plain]
  constructor
  · rintro ⟨left, right, rfl, one, many⟩
    obtain ⟨c, rfl, holds⟩ := (single left).mp one
    exact ⟨by simp, List.forall_mem_cons.mpr ⟨holds, (lang_star_single plain single).mp many⟩⟩
  · rintro ⟨some, every⟩
    cases text with
    | nil => exact absurd rfl some
    | cons c rest =>
      obtain ⟨here, later⟩ := List.forall_mem_cons.mp every
      exact ⟨[c], rest, rfl, (single [c]).mpr ⟨c, rfl, here⟩,
        (lang_star_single plain single).mpr later⟩

theorem lang_word [BEq α] [LawfulBEq α] {first : α} {rest text : List α} :
    (Expr.word first rest).Lang newline text ↔ text = first :: rest := by
  induction rest generalizing first text with
  | nil => exact lang_literal
  | cons next rest ih =>
    have plain : ∀ (first : α) (rest : List α), (Expr.word first rest).plain := by
      intro first rest
      induction rest generalizing first with
      | nil => trivial
      | cons next rest ih => exact ⟨trivial, ih next⟩
    rw [Expr.word, lang_cons (plain next rest)]
    simp only [ih]
    constructor
    · rintro ⟨tail, rfl, rfl⟩
      rfl
    · rintro rfl
      exact ⟨_, rfl, rfl⟩

theorem match_anchored {body : Expr α} (plain : body.plain) {pre mid post : List α} :
    body.anchored.Match newline pre mid post ↔ body.Lang newline mid ∧
      (pre = [] ∨ ∃ c, newline = some c ∧ pre.getLast? = some c) ∧
      (post = [] ∨ ∃ c, newline = some c ∧ post.head? = some c) := by
  simp only [Expr.anchored, Expr.Match]
  constructor
  · rintro ⟨_, _, rfl, ⟨rfl, start⟩, text, _, rfl, matched, rfl, stop⟩
    rw [match_plain plain] at matched
    simpa using ⟨matched, start, stop⟩
  · rintro ⟨matched, start, stop⟩
    refine ⟨[], mid, by simp, ⟨rfl, start⟩, mid, [], by simp, ?_, rfl, stop⟩
    rwa [match_plain plain]

theorem exec_anchored_none {body : Expr α} (plain : body.plain) {text : List α} :
    body.anchored.exec none text ↔ body.Lang none text := by
  constructor
  · rintro ⟨pre, mid, post, rfl, found⟩
    obtain ⟨matched, start | ⟨_, never, _⟩, stop | ⟨_, never, _⟩⟩ := (match_anchored plain).mp found
    · rwa [start, stop, List.nil_append, List.append_nil]
    · cases never
    · cases never
    · cases never
  · intro matched
    exact ⟨[], text, [], by simp, (match_anchored plain).mpr ⟨matched, .inl rfl, .inl rfl⟩⟩

theorem exec_alt {left right : Expr α} {text : List α} :
    (Expr.alt left right).exec newline text ↔ left.exec newline text ∨ right.exec newline text := by
  simp only [Expr.exec, Expr.Match, and_or_left, exists_or]

section

variable [BEq α] [LawfulBEq α] {symbol : α}

theorem not_mem_of_mem_splitOn {text piece : List α} (member : piece ∈ text.splitOn symbol) :
    symbol ∉ piece := by
  induction text generalizing piece with
  | nil =>
    rw [List.splitOn_nil, List.mem_singleton] at member
    simp [member]
  | cons head rest ih =>
    rw [List.splitOn_cons_eq_if_modifyHead] at member
    split_ifs at member with ends
    · obtain rfl | later := List.mem_cons.mp member
      · simp
      · exact ih later
    · obtain ⟨front, back, split⟩ := List.exists_cons_of_ne_nil (List.splitOn_ne_nil symbol rest)
      rw [split] at member ih
      obtain rfl | later := List.mem_cons.mp member
      · have other : symbol ≠ head := by
          rintro rfl
          exact ends (BEq.refl _)
        simp [other, ih List.mem_cons_self]
      · exact ih (List.mem_cons_of_mem _ later)

theorem mem_splitOn {text piece : List α} : piece ∈ text.splitOn symbol ↔ symbol ∉ piece ∧
    ∃ pre post, text = pre ++ piece ++ post ∧ (pre = [] ∨ pre.getLast? = some symbol) ∧
      (post = [] ∨ post.head? = some symbol) := by
  constructor
  · intro member
    refine ⟨not_mem_of_mem_splitOn member, ?_⟩
    obtain ⟨before, after, split⟩ := List.append_of_mem member
    have joined : [symbol].intercalate (text.splitOn symbol) = text :=
      List.intercalate_splitOn symbol
    have tails : ∀ (head : List α) (rest : List (List α)),
        [symbol].intercalate (head :: rest) = head ++ (rest.map (symbol :: ·)).flatten := by
      intro head rest
      induction rest generalizing head with
      | nil => simp
      | cons next rest ih => simp [List.intercalate_cons_cons, ih]
    have whole : ∀ front : List (List α), [symbol].intercalate (front ++ piece :: after) =
        (front.map (· ++ [symbol])).flatten ++ piece ++ (after.map (symbol :: ·)).flatten := by
      intro front
      induction front with
      | nil => simp [tails]
      | cons head front ih =>
        rw [List.cons_append, List.intercalate_cons_of_ne_nil (by simp), ih]
        simp
    rw [split, whole] at joined
    refine ⟨_, _, joined.symm, ?_, ?_⟩
    · obtain rfl | ⟨front, last, rfl⟩ := before.eq_nil_or_concat
      · exact .inl rfl
      · exact .inr (by simp)
    · cases after with
      | nil => exact .inl rfl
      | cons next after => exact .inr rfl
  · rintro ⟨absent, pre, post, rfl, start, stop⟩
    have here : piece ∈ (piece ++ post).splitOn symbol := by
      obtain rfl | ends := stop
      · rw [List.append_nil, List.splitOn_eq_singleton absent]
        exact List.mem_singleton_self _
      · obtain ⟨rest, rfl⟩ := List.head?_eq_some_iff.mp ends
        rw [List.splitOn_append_cons_self_of_not_mem absent]
        exact List.mem_cons_self
    obtain rfl | ends := start
    · exact here
    · obtain ⟨front, rfl⟩ := List.getLast?_eq_some_iff.mp ends
      rw [List.append_assoc, List.append_assoc, List.singleton_append,
        List.splitOn_append_cons_self]
      exact List.mem_append_right _ here

theorem mem_of_mem_splitOn {text piece : List α} (member : piece ∈ text.splitOn symbol) :
    ∀ c ∈ piece, c ∈ text := by
  obtain ⟨_, pre, post, rfl, _⟩ := mem_splitOn.mp member
  intro c inside
  simp [inside]

theorem exists_mem_splitOn {text : List α} {c : α} (member : c ∈ text) (other : c ≠ symbol) :
    ∃ piece ∈ text.splitOn symbol, c ∈ piece := by
  induction text with
  | nil => cases member
  | cons head rest ih =>
    rw [List.splitOn_cons_eq_if_modifyHead]
    obtain ⟨front, back, split⟩ := List.exists_cons_of_ne_nil (List.splitOn_ne_nil symbol rest)
    split_ifs with ends
    · have later : c ∈ rest := (List.mem_cons.mp member).resolve_left fun here =>
        other (here.trans (eq_of_beq ends))
      obtain ⟨piece, inside, found⟩ := ih later
      exact ⟨piece, List.mem_cons_of_mem _ inside, found⟩
    · rw [split] at ih ⊢
      obtain rfl | later := List.mem_cons.mp member
      · exact ⟨_, List.mem_cons_self, List.mem_cons_self⟩
      · obtain ⟨piece, inside, found⟩ := ih later
        obtain rfl | behind := List.mem_cons.mp inside
        · exact ⟨_, List.mem_cons_self, List.mem_cons_of_mem _ found⟩
        · exact ⟨piece, List.mem_cons_of_mem _ behind, found⟩

theorem exec_anchored_some {body : Expr α} (plain : body.plain)
    (single : ∀ line, body.Lang (some symbol) line → symbol ∉ line) {text : List α} :
    body.anchored.exec (some symbol) text ↔ ∃ line ∈ text.splitOn symbol,
    body.Lang (some symbol) line := by
  constructor
  · rintro ⟨pre, mid, post, split, found⟩
    obtain ⟨matched, start, stop⟩ := (match_anchored plain).mp found
    refine ⟨mid, mem_splitOn.mpr ⟨single mid matched, pre, post, split, ?_, ?_⟩, matched⟩
    · exact start.imp_right fun ⟨_, same, last⟩ => by rwa [Option.some.inj same]
    · exact stop.imp_right fun ⟨_, same, first⟩ => by rwa [Option.some.inj same]
  · rintro ⟨line, member, matched⟩
    obtain ⟨_, pre, post, split, start, stop⟩ := mem_splitOn.mp member
    refine ⟨pre, line, post, split, (match_anchored plain).mpr ⟨matched, ?_, ?_⟩⟩
    · exact start.imp_right fun last => ⟨symbol, rfl, last⟩
    · exact stop.imp_right fun first => ⟨symbol, rfl, first⟩

end

end Ere
