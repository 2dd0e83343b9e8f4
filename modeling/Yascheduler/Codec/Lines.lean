import Yascheduler.Codec.Text

/-!
# Words and lines

`str.split` without arguments, and with a line feed when empty lines are
skipped, gives the non-empty stretches between separators: the *words* of a
text. `str.splitlines` cuts at every kind of line break, and keeps empty lines.
For whoever skips these, it cuts as if every character of a line break were one.

The breaks of `splitlines` are more than the line feed: carriage returns, form
feeds, the separators of ASCII, and three characters beyond it. A text in which
one of these stands is one line for whoever writes it with `\n` and several for
whoever reads it with `splitlines`, and which values survive being written and
read in this way is a question of these sets.
-/

namespace Text

/-! ## Words

A separator ends a word and several of them end one. So the words of a text can
be found from its parts, as long as the parts are cut at separators, and the
lemmas below are all of this kind. -/

section

variable {α : Type} {p : α → Bool} {s t : List α}

/-- The non-empty stretches between separators. -/
def words (p : α → Bool) (s : List α) : List (List α) :=
  (s.splitOnP p).filter fun w => !w.isEmpty

/-- A text without separators, by looking through it. -/
theorem forall_of_all (h : (s.all fun a => !p a) = true) : ∀ a ∈ s, p a = false := by
  simpa using h

@[simp] theorem words_nil : words p [] = [] := rfl

/-- **A separator ends a word.** By induction on the text before it; with this rule a
text can be taken apart at any separator that one knows of. -/
theorem words_append_cons {a : α} (ha : p a = true) :
    words p (s ++ a :: t) = words p s ++ words p t := by
  unfold words
  rw [List.splitOnP_append_cons s t ha, List.filter_append]

@[simp] theorem words_cons {a : α} (ha : p a = true) : words p (a :: s) = words p s :=
  words_append_cons (s := []) ha

/-- A text without separators is a word. -/
theorem words_of_word (hne : s ≠ []) (hs : ∀ a ∈ s, p a = false) : words p s = [s] := by
  unfold words
  rw [List.splitOnP_eq_singleton hs]
  simp [hne]

theorem words_append_word {a : α} (ha : p a = true) (hne : s ≠ []) (hs : ∀ b ∈ s, p b = false) :
    words p (s ++ a :: t) = s :: words p t := by
  rw [words_append_cons ha, words_of_word hne hs, List.singleton_append]

/-- No word holds a separator. -/
theorem not_mem_words {w : List α} (h : w ∈ words p s) : ∀ a ∈ w, p a = false := by
  have hsplit : ∀ l ∈ s.splitOnP p, ∀ a ∈ l, p a = false := by
    clear h
    induction s with
    | nil => simp
    | cons b s ih =>
      rw [List.splitOnP_cons_eq_if_modifyHead]
      split
      · exact List.forall_mem_cons.mpr ⟨by simp, ih⟩
      · rename_i hb
        cases hs : s.splitOnP p with
        | nil => simp
        | cons l ls =>
          rw [hs] at ih
          obtain ⟨hl, hls⟩ := List.forall_mem_cons.mp ih
          rw [List.modifyHead_cons, List.forall_mem_cons, List.forall_mem_cons]
          exact ⟨⟨by simpa using hb, hl⟩, hls⟩
  exact hsplit w (List.mem_filter.mp h).1

/-- The words of words with a separator between them. -/
theorem words_intercalate {a : α} (ha : p a = true) {ws : List (List α)}
    (hws : ∀ w ∈ ws, w ≠ [] ∧ ∀ b ∈ w, p b = false) :
    words p ([a].intercalate ws) = ws := by
  induction ws with
  | nil => rfl
  | cons w ws ih =>
    obtain ⟨⟨hne, hw⟩, hws⟩ := List.forall_mem_cons.mp hws
    cases ws with
    | nil => rw [List.intercalate_singleton, words_of_word hne hw]
    | cons w' ws =>
      rw [List.intercalate_cons_cons, List.append_assoc, List.singleton_append,
        words_append_word ha hne hw, ih hws]

/-- The words of lines that each end with a separator. -/
theorem words_flatMap {β : Type} {a : α} (ha : p a = true) {f : β → List α} {bs : List β}
    (hbs : ∀ b ∈ bs, f b ≠ [] ∧ ∀ c ∈ f b, p c = false) :
    words p (bs.flatMap fun b => f b ++ [a]) = bs.map f := by
  induction bs with
  | nil => rfl
  | cons b bs ih =>
    obtain ⟨⟨hne, hb⟩, hbs⟩ := List.forall_mem_cons.mp hbs
    rw [List.flatMap_cons, List.append_assoc, List.singleton_append,
      words_append_word ha hne hb, ih hbs, List.map_cons]

end

/-! ## Lines

A carriage return followed by a line feed is one break, so `splitlines` is not
a cut at every break character. The two differ by empty lines only. For whoever
skips these they agree, and the facts about words may be used for lines. -/

/-- The characters that break a line. -/
def isLineBreak (c : Char) : Bool :=
  let n := c.toNat
  (10 ≤ n ∧ n ≤ 13) ∨ (28 ≤ n ∧ n ≤ 30) ∨ n = 0x85 ∨ n = 0x2028 ∨ n = 0x2029

/-- `s.splitlines()`. A line feed after a carriage return breaks no line. -/
def splitlines : List Char → List (List Char)
  | [] => []
  | '\r' :: '\n' :: s => [] :: splitlines s
  | c :: s =>
    if isLineBreak c then [] :: splitlines s
    else
      match splitlines s with
      | [] => [[c]]
      | l :: ls => (c :: l) :: ls

example : splitlines "a\r\n\nb\r".toList = [['a'], [], ['b']] := by decide

theorem splitlines_crlf (s : List Char) : splitlines ('\r' :: '\n' :: s) = [] :: splitlines s := by
  rw [splitlines]

/-- A break that is not the first half of another. -/
theorem splitlines_break {c : Char} {s : List Char} (hc : isLineBreak c = true)
    (h : ∀ s', c = '\r' → s = '\n' :: s' → False) :
    splitlines (c :: s) = [] :: splitlines s := by
  rw [splitlines, if_pos hc]
  exact h

theorem splitlines_char {c : Char} {s : List Char} (hc : isLineBreak c = false) :
    splitlines (c :: s) = (c :: (splitlines s).head?.getD []) :: (splitlines s).tail := by
  have hr : ∀ s', c = '\r' → s = '\n' :: s' → False := by
    rintro s' rfl -
    cases hc
  rw [splitlines, hc, if_neg Bool.false_ne_true]
  · cases splitlines s <;> rfl
  · exact hr

/-- The two ways to cut begin with the same line, and go on with the same lines
that are not empty. -/
theorem splitlines_cons (c : Char) (s : List Char) : ∃ l ls ls',
    splitlines (c :: s) = l :: ls ∧ (c :: s).splitOnP isLineBreak = l :: ls' ∧
      ls.filter (!·.isEmpty) = ls'.filter (!·.isEmpty) := by
  rw [List.splitOnP_cons_eq_if_modifyHead]
  induction s generalizing c with
  | nil =>
    cases hc : isLineBreak c with
    | true => exact ⟨[], [], [[]], splitlines_break hc (by rintro _ _ ⟨⟩), rfl, rfl⟩
    | false => exact ⟨[c], [], [], splitlines_char hc, rfl, rfl⟩
  | cons d s ih =>
    obtain ⟨l, ls, ls', hlines, hsplit, hrest⟩ := ih d
    rw [List.splitOnP_cons_eq_if_modifyHead, hsplit]
    cases hc : isLineBreak c with
    | true =>
      by_cases hcrlf : c = '\r' ∧ d = '\n'
      · obtain ⟨rfl, rfl⟩ := hcrlf
        rw [splitlines_break rfl (by rintro _ ⟨⟩)] at hlines
        obtain ⟨rfl, rfl⟩ := List.cons.inj hlines
        exact ⟨[], _, [] :: ls', splitlines_crlf s, rfl, hrest⟩
      · refine ⟨[], l :: ls, l :: ls', ?_, rfl, ?_⟩
        · rw [← hlines]
          refine splitlines_break hc fun s' hr hn => hcrlf ⟨hr, ?_⟩
          exact (List.cons.inj hn).1
        · rw [List.filter_cons, List.filter_cons, hrest]
    | false =>
      refine ⟨c :: l, ls, ls', ?_, rfl, hrest⟩
      rw [splitlines_char hc, hlines]
      rfl

/-- **Apart from empty lines, every break ends a line.** So `splitlines` and the
words between breaks can be exchanged for whoever skips empty lines. -/
theorem filter_splitlines (s : List Char) :
    (splitlines s).filter (!·.isEmpty) = words isLineBreak s := by
  cases s with
  | nil => rfl
  | cons c s =>
    obtain ⟨l, ls, ls', hlines, hsplit, hrest⟩ := splitlines_cons c s
    unfold words
    rw [hlines, hsplit, List.filter_cons, List.filter_cons, hrest]

end Text
