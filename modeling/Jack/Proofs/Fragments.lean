import Jack.Proofs.Checked.Scanner

namespace Jack.Span

/-- Whether a span lies in a text: the sum of index and size is taken without wrapping around and is
not behind the text, and both the index and the sum lie on the edges of characters. -/
structure LiesIn (span : Span) (text : String) : Prop where
  noWrap : span.index.toNat + span.size.toNat < 2 ^ 32
  within : span.index.toNat + span.size.toNat ≤ text.utf8ByteSize
  start : String.Pos.Raw.IsValid text ⟨span.index.toNat⟩
  stop : String.Pos.Raw.IsValid text ⟨span.index.toNat + span.size.toNat⟩

/-- Two edges of characters cut a text into three parts. -/
theorem exists_parts {text : String} {first last : Nat} (inOrder : first ≤ last)
    (start : String.Pos.Raw.IsValid text ⟨first⟩) (stop : String.Pos.Raw.IsValid text ⟨last⟩) :
    ∃ before fragment behind : List Char, text.toList = before ++ (fragment ++ behind) ∧
      (String.ofList before).utf8ByteSize = first ∧
      first + (String.ofList fragment).utf8ByteSize = last := by
  obtain ⟨before, later, whole, isFirst⟩ := String.Pos.Raw.isValid_iff_exists_append.1 start
  obtain ⟨earlier, behind, same, isLast⟩ := String.Pos.Raw.isValid_iff_exists_append.1 stop
  obtain rfl : first = before.utf8ByteSize := congrArg String.Pos.Raw.byteIdx isFirst
  obtain rfl : last = earlier.utf8ByteSize := congrArg String.Pos.Raw.byteIdx isLast
  have lists : before.toList ++ later.toList = earlier.toList ++ behind.toList := by
    rw [← String.toList_append, ← String.toList_append, ← whole, ← same]
  obtain ⟨between, isEarlier, isLater⟩ | ⟨between, isBefore, isBehind⟩ :=
    List.append_eq_append_iff.1 lists
  · refine ⟨before.toList, between, behind.toList, ?_, by rw [String.ofList_toList], ?_⟩
    · rw [whole, String.toList_append, isLater]
    · rw [← earlier.ofList_toList, isEarlier, String.ofList_append, String.utf8ByteSize_append,
        String.ofList_toList]
  · -- Here both edges are the same, and nothing lies between them.
    have isSize : before.utf8ByteSize =
        earlier.utf8ByteSize + (String.ofList between).utf8ByteSize := by
      rw [← before.ofList_toList, isBefore, String.ofList_append, String.utf8ByteSize_append,
        String.ofList_toList]
    refine ⟨before.toList, [], later.toList, ?_, by rw [String.ofList_toList], ?_⟩
    · rw [whole, String.toList_append, List.nil_append]
    · rw [String.ofList_nil, String.utf8ByteSize_empty]
      omega

theorem isValid_of_append {text : String} {before behind : List Char}
    (whole : text.toList = before ++ behind) :
    String.Pos.Raw.IsValid text ⟨(String.ofList before).utf8ByteSize⟩ := by
  refine String.Pos.Raw.isValid_iff_exists_append.2
    ⟨String.ofList before, String.ofList behind, ?_, rfl⟩
  rw [← String.ofList_append, ← whole, String.ofList_toList]

/-- There is text under a span exactly if the span lies in the text. -/
theorem exists_fragment?_iff {span : Span} {text : String} :
    (∃ fragment, span.fragment? text.toList = some fragment) ↔ span.LiesIn text := by
  simp only [fragment?_eq_some_iff]
  constructor
  · rintro ⟨fragment, noWrap, before, behind, whole, index, size⟩
    have atStop : text.toList = before ++ fragment ++ behind := by rw [whole, List.append_assoc]
    have stop := isValid_of_append atStop
    rw [String.ofList_append, String.utf8ByteSize_append, index, size] at stop
    exact ⟨noWrap, stop.le_rawEndPos, index ▸ isValid_of_append whole, stop⟩
  · rintro ⟨noWrap, -, start, stop⟩
    obtain ⟨before, fragment, behind, whole, index, size⟩ :=
      exists_parts (Nat.le_add_right _ _) start stop
    exact ⟨fragment, noWrap, before, behind, whole, index, Nat.add_left_cancel size⟩

/-- The text under a span consists of the bytes from its start up to its end. -/
theorem toUTF8_fragment {span : Span} {text : String} {fragment : List Char}
    (isFragment : span.fragment? text.toList = some fragment) :
    (String.ofList fragment).toUTF8 =
      text.toUTF8.extract span.index.toNat (span.index.toNat + span.size.toNat) := by
  obtain ⟨-, before, behind, whole, index, size⟩ := fragment?_eq_some_iff.1 isFragment
  have bytes : text.toUTF8 = (String.ofList before).toUTF8 ++
      ((String.ofList fragment).toUTF8 ++ (String.ofList behind).toUTF8) := by
    rw [← text.ofList_toList, whole, String.ofList_append, String.ofList_append]
    rfl
  rw [bytes, ← index, ← size]
  calc
    (String.ofList fragment).toUTF8
    _ = ((String.ofList fragment).toUTF8 ++ (String.ofList behind).toUTF8).extract 0
          (String.ofList fragment).utf8ByteSize := (ByteArray.extract_append_eq_left rfl).symm
    _ = _ := ByteArray.extract_append_size_add.symm

/-- It makes no difference whether an addition that wraps around stops or goes on: there is text
under a span in both cases or in none. -/
theorem toOption_cutOut (span : Span) (text : List Char) :
    (span.cutOut text).toOption = span.fragment? text := by
  rw [cutOut, Checked.add, fragment?]
  obtain ⟨noWrap, stop, inOrder⟩ | ⟨wraps, backwards⟩ := span.toNat_stop_or
  · have isSum : (span.index + span.size).toNat = span.stop.toNat := rfl
    rw [if_neg inOrder, if_pos noWrap, Checked.ok_bind, Checked.slice, isSum, if_pos (by omega),
      Checked.ok_bind]
    dsimp only
    cases dropBytes span.index.toNat text with
    | none => rfl
    | some tail =>
      dsimp only [Option.bind_eq_bind, Option.bind_some]
      cases dropBytes (span.stop.toNat - span.index.toNat) tail with
      | none => rfl
      | some rest => rfl
  · rw [if_pos backwards, if_neg (Nat.not_lt.2 wraps)]
    rfl

/-- What comes of cutting the text under a span out of a text. -/
structure Slices (span : Span) (text : String) : Prop where
  /-- There is such text exactly if the span lies in the text. -/
  iff_liesIn : (∃ fragment, span.fragment? text.toList = some fragment) ↔ span.LiesIn text
  /-- It consists of the bytes from the start up to the end. -/
  bytes : ∀ fragment, span.fragment? text.toList = some fragment →
    (String.ofList fragment).toUTF8 =
      text.toUTF8.extract span.index.toNat (span.index.toNat + span.size.toNat)
  /-- With an addition that stops where the sum would wrap around it is the same text. -/
  checked : (span.cutOut text.toList).toOption = span.fragment? text.toList
  /-- There is no text under a span whose sum wraps around, however the addition is made. -/
  wraps : 2 ^ 32 ≤ span.index.toNat + span.size.toNat →
    span.fragment? text.toList = none ∧ span.cutOut text.toList = .error .overflow
  /-- In a text shorter than 2^32 bytes no sum within the text wraps around. -/
  short : text.utf8ByteSize < 2 ^ 32 →
    ((∃ fragment, span.fragment? text.toList = some fragment) ↔
      span.index.toNat + span.size.toNat ≤ text.utf8ByteSize ∧
        String.Pos.Raw.IsValid text ⟨span.index.toNat⟩ ∧
        String.Pos.Raw.IsValid text ⟨span.index.toNat + span.size.toNat⟩)

/-- Every span cuts out of every text what lies between its ends, or nothing. -/
theorem slices_exactly (span : Span) (text : String) : span.Slices text := by
  refine ⟨exists_fragment?_iff, fun _ => toUTF8_fragment, toOption_cutOut span text.toList,
    fun wraps => ?_, fun short => ?_⟩
  · have overflows : span.cutOut text.toList = .error .overflow := by
      rw [cutOut, Checked.add, if_neg (Nat.not_lt.2 wraps)]
      rfl
    exact ⟨by rw [← toOption_cutOut, overflows]; rfl, overflows⟩
  · rw [exists_fragment?_iff]
    refine ⟨fun lies => ⟨lies.within, lies.start, lies.stop⟩, ?_⟩
    rintro ⟨within, start, stop⟩
    exact ⟨Nat.lt_of_le_of_lt within short, within, start, stop⟩

/-- A character of two bytes is cut out as a whole. A span that begins behind it and whose sum wraps
around to its first byte cuts nothing out. -/
theorem slices_exactly_accented :
    Span.LiesIn ⟨1, 2⟩ "aé" ∧ "aé".toUTF8.extract 1 3 = "é".toUTF8 ∧
      (Span.mk 3 4294967294).stop = 1 ∧
      (Span.mk 3 4294967294).fragment? "aé".toList = none ∧
      (Span.mk 3 4294967294).cutOut "aé".toList = .error .overflow := by
  have cut : (Span.mk 1 2).fragment? "aé".toList = some ['é'] := by decide
  have accent := slices_exactly ⟨1, 2⟩ "aé"
  exact ⟨accent.iff_liesIn.1 ⟨_, cut⟩, (accent.bytes _ cut).symm, by decide,
    (slices_exactly ⟨3, 4294967294⟩ "aé").wraps (by decide)⟩

end Jack.Span
