import Yascheduler.Safety.InputFiles

/-!
# Lenient base64

`_safe_b64decode` is lenient about white space and about padding that is
missing. It removes line feeds and spaces, counts what is left, and pads that
to a multiple of four. But carriage returns and tabs inside the text are left,
and counted, although the library skips them. So the padding is made for a
length that is not that of the data. It is enough, or too much, or too little,
by the number of these characters modulo four.

So the law can be read off two numbers: how many characters of the padding are
missing, and how many carriage returns and tabs are left inside the text. Which
characters these are, and where they stand, makes no difference, since the library
skips whatever is not of its alphabet. Nor does a padding that is longer than it
has to be.
-/

namespace Yascheduler

/-! ## Texts of the same bytes

A text that stands for certain bytes is their encoding, with part of the
padding cut off and with white space put in. These are the ways in which a text
is damaged without its bytes being lost, and the ones that the function is
written for. -/

/-- The white space that a text is broken with. -/
def isBlank (c : Char) : Bool := c = ' ' || c = '\n' || c = '\r' || c = '\t'

/-- **A loosened text**: `removed` characters of the padding are missing, and white
space is anywhere. This is what the decoder is there for. -/
def Loosened (bytes : List UInt8) (removed : Nat) (text : String) : Prop :=
  Codec.encode bytes =
    text.toList.filter (fun c => !isBlank c) ++ List.replicate removed '='

/-- The carriage returns and tabs that are left in a text. Line feeds and spaces are
removed from it, and these are not. -/
def leftBlanks (text : String) : Nat :=
  (Text.strip text.toList).countP fun c => c = '\r' || c = '\t'

/-! ## What is decoded -/

/-- The characters that are read are printable. -/
theorem not_blank_of_isRead {c : Char} (h : Codec.isRead c = true) :
    Text.isSpace c = false ∧ isBlank c = false := by
  have hall : ('=' :: Codec.alphabet).all (fun c => !Text.isSpace c && !isBlank c) = true := by
    rw [Codec.alphabet_eq]
    decide +kernel
  suffices hmem : c ∈ '=' :: Codec.alphabet by
    simpa using List.all_eq_true.mp hall c hmem
  refine List.mem_cons.mpr ?_
  rcases Bool.or_eq_true_iff.mp h with hpad | hvalue
  · exact .inl (of_decide_eq_true hpad)
  · exact .inr (List.isSome_idxOf?.mp hvalue)

/-- Leading white space is not read. -/
theorem filter_dropWhile (text : List Char) :
    (text.dropWhile Text.isSpace).filter Codec.isRead = text.filter Codec.isRead := by
  induction text with
  | nil => rfl
  | cons c text ih =>
    cases hc : Text.isSpace c with
    | false => rw [List.dropWhile_cons_of_neg (by simp [hc])]
    | true =>
      have hread : ¬Codec.isRead c = true := fun h => by
        rw [(not_blank_of_isRead h).1] at hc
        cases hc
      rw [List.dropWhile_cons_of_pos hc, ih, List.filter_cons_of_neg hread]

/-- What is stripped of a text is not read. -/
theorem filter_strip (text : List Char) :
    (Text.strip text).filter Codec.isRead = text.filter Codec.isRead := by
  unfold Text.strip Text.stripBy
  rw [List.filter_reverse, filter_dropWhile, List.filter_reverse, List.reverse_reverse,
    filter_dropWhile]

section

variable {bytes : List UInt8} {removed : Nat} {text : String}

/-- What is not blank is read. -/
theorem Loosened.isRead (h : Loosened bytes removed text) {c : Char} (hc : c ∈ text.toList) :
    Codec.isRead c = !isBlank c := by
  cases hblank : isBlank c with
  | true =>
    cases hread : Codec.isRead c with
    | false => rfl
    | true =>
      rw [(not_blank_of_isRead hread).2] at hblank
      cases hblank
  | false =>
    have hmem : c ∈ Codec.encode bytes := by
      rw [show Codec.encode bytes = _ from h]
      exact List.mem_append_left _ (List.mem_filter.mpr ⟨hc, by simp [hblank]⟩)
    rw [Codec.encode_eq] at hmem
    rcases List.mem_append.mp hmem with hcore | hpad
    · exact (Codec.core_isRead bytes c hcore).1
    · rw [List.eq_of_mem_replicate hpad]
      rfl

/-- What is left after the line feeds and the spaces are removed: what is read,
and the other blanks. -/
theorem length_left {left : List Char} (h : ∀ c ∈ left, Codec.isRead c = !isBlank c) :
    (left.filter fun c => c ≠ '\n' ∧ c ≠ ' ').length =
      (left.filter Codec.isRead).length + left.countP fun c => c = '\r' || c = '\t' := by
  induction left with
  | nil => rfl
  | cons c left ih =>
    obtain ⟨hc, hleft⟩ := List.forall_mem_cons.mp h
    specialize ih hleft
    rw [List.filter_cons, List.filter_cons, List.countP_cons, hc]
    by_cases hblank : c = ' ' ∨ c = '\n' ∨ c = '\r' ∨ c = '\t'
    · rcases hblank with rfl | rfl | rfl | rfl <;> simp [isBlank] at ih ⊢ <;> omega
    · simp only [not_or] at hblank
      obtain ⟨hspace, hnewline, hreturn, htab⟩ := hblank
      simp [isBlank, hspace, hnewline, hreturn, htab] at ih ⊢
      omega

/-- Line feeds and spaces are not read. -/
theorem filter_left (left : List Char) :
    (left.filter fun c => c ≠ '\n' ∧ c ≠ ' ').filter Codec.isRead = left.filter Codec.isRead := by
  rw [List.filter_filter]
  refine List.filter_congr fun c _ => ?_
  cases hread : Codec.isRead c with
  | false => rfl
  | true =>
    have hblank := (not_blank_of_isRead hread).2
    simp only [isBlank, Bool.or_eq_false_iff, decide_eq_false_iff_not] at hblank
    obtain ⟨⟨⟨hspace, hnewline⟩, -⟩, -⟩ := hblank
    simp [hspace, hnewline]

/-- The padding that is made: it depends on the blanks that were counted, because it
is computed from the length of the text. -/
theorem padded_eq {left : List Char} {blanks : Nat}
    (h : (left.length + removed) % 4 = blanks % 4) :
    padded left = left ++ List.replicate ((removed + 3 * blanks) % 4) '=' := by
  unfold padded
  split
  · next hzero =>
    rw [show (removed + 3 * blanks) % 4 = 0 by omega]
    exact (List.append_nil left).symm
  · next hpos =>
    rw [show (removed + 3 * blanks) % 4 = 4 - left.length % 4 by omega]

/-- All of it is ASCII, so the decoder does not raise before it reads. -/
theorem ascii_padded {left : List Char} (h : ∀ c ∈ left, Codec.isRead c = !isBlank c) :
    ((padded left).any fun c => 128 ≤ c.toNat) = false := by
  have hsmall : ('=' :: (Codec.alphabet ++ [' ', '\n', '\r', '\t'])).all
      (fun c => decide (c.toNat < 128)) = true := by
    rw [Codec.alphabet_eq]
    decide +kernel
  have hall : ∀ c ∈ '=' :: (Codec.alphabet ++ [' ', '\n', '\r', '\t']), c.toNat < 128 :=
    fun c hc => of_decide_eq_true (List.all_eq_true.mp hsmall c hc)
  have hleft : ∀ c ∈ left, c.toNat < 128 := by
    intro c hc
    refine hall c ?_
    cases hblank : isBlank c with
    | true =>
      simp only [isBlank, Bool.or_eq_true, decide_eq_true_eq] at hblank
      rcases hblank with ((rfl | rfl) | rfl) | rfl <;> simp
    | false =>
      have hread : Codec.isRead c = true := by rw [h c hc, hblank]; rfl
      rcases Bool.or_eq_true_iff.mp hread with hpad | hvalue
      · exact List.mem_cons.mpr (.inl (of_decide_eq_true hpad))
      · exact List.mem_cons_of_mem _ (List.mem_append_left _ (List.isSome_idxOf?.mp hvalue))
  refine List.any_eq_false.mpr fun c hc => ?_
  rw [decide_eq_true_eq, Nat.not_le]
  unfold padded at hc
  split at hc
  · exact hleft c hc
  · rcases List.mem_append.mp hc with hc | hc
    · exact hleft c hc
    · exact hall c (List.mem_cons.mpr (.inl (List.eq_of_mem_replicate hc)))

/-- **A loosened text is decoded if and only if** the padding that is made for it,
carriage returns and tabs included, is at least as long as what is missing. More
than that does no harm, and less makes the decoder raise. -/
theorem safeB64decode_iff (h : Loosened bytes removed text) :
    safeB64decode text = .ok bytes ↔ removed ≤ (removed + 3 * leftBlanks text) % 4 := by
  have hread : text.toList.filter (fun c => !isBlank c) = text.toList.filter Codec.isRead :=
    List.filter_congr fun c hc => (h.isRead hc).symm
  have hencode : Codec.encode bytes = text.toList.filter Codec.isRead ++
      List.replicate removed '=' := hread ▸ h
  obtain ⟨hle, hcore⟩ := Codec.encode_eq_append hencode
  have hstrip : ∀ c ∈ Text.strip text.toList, Codec.isRead c = !isBlank c :=
    fun c hc => h.isRead ((strip_sublist _).subset hc)
  -- the text that is padded, and how long it is
  set left := (Text.strip text.toList).filter fun c => c ≠ '\n' ∧ c ≠ ' ' with hleft
  have hfilter : left.filter Codec.isRead = text.toList.filter Codec.isRead := by
    rw [hleft, filter_left, filter_strip]
  have hlength : left.length = (text.toList.filter Codec.isRead).length + leftBlanks text := by
    rw [hleft, length_left hstrip, filter_strip, leftBlanks]
  have hgroups := Codec.length_encode bytes
  rw [hencode, List.length_append, List.length_replicate] at hgroups
  have hpadded : padded left = left ++ List.replicate ((removed + 3 * leftBlanks text) % 4) '=' :=
    padded_eq (by omega)
  have hascii : ((padded left).any fun c => 128 ≤ c.toNat) = false :=
    ascii_padded fun c hc => hstrip c (List.mem_of_mem_filter hc)
  have hdecode : Codec.decode (padded left) =
      if removed ≤ (removed + 3 * leftBlanks text) % 4 then some bytes else none := by
    unfold Codec.decode
    rw [← Codec.decodeFrom_filter, hpadded, List.filter_append, hfilter, hcore,
      List.filter_replicate_of_pos rfl, List.append_assoc, List.replicate_append_replicate]
    refine (Codec.decode_core bytes _).trans (if_congr ?_ rfl rfl)
    omega
  unfold safeB64decode
  simp only [← hleft, hascii, hdecode, Bool.false_eq_true, if_false]
  split_ifs with henough
  · exact iff_of_true rfl henough
  · exact iff_of_false (fun herror => nomatch herror) henough

/-- Both padding characters are missing, and three blanks are left in the
text: three are made. -/
theorem safeB64decode_threeBlanks : safeB64decode " A\r\n\t\rA\t" = .ok [0] := by
  have h : Loosened [0] 2 " A\r\n\t\rA\t" := by
    show Codec.encode [0] = _
    decide +kernel
  exact (safeB64decode_iff h).mpr (by decide +kernel)

/-- Both are missing, and one blank is left: one is made. -/
theorem not_safeB64decode_oneBlank : ¬∀ bytes removed text, Loosened bytes removed text →
    safeB64decode text = .ok bytes := by
  intro hall
  have h : Loosened [0] 2 "A\rA" := by
    show Codec.encode [0] = _
    decide +kernel
  have hdecoded := hall [0] 2 "A\rA" h
  rw [show safeB64decode "A\rA" = .error (.other "binascii.Error") from by decide +kernel] at hdecoded
  cases hdecoded

end

end Yascheduler
