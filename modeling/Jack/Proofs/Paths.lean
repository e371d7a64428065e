import Jack.Files.Path

namespace Jack.Path

/-- What stands behind the last slash of a path. -/
def lastPart (path : String) : String :=
  String.ofList (path.toList.reverse.takeWhile notSlash).reverse

/-- What can stand in front of a name in a path. -/
def Leads (front : String) : Prop :=
  front = "" ∨ ∃ before, front = before ++ "/"

/-- A name that is neither empty nor one for a directory by its place. -/
structure Proper (name : String) : Prop where
  nonempty : name ≠ ""
  notHere : name ≠ "."
  notAbove : name ≠ ".."
  whole : '/' ∉ name.toList

theorem bne_of_notMem {cut : Char} {text : List Char} (absent : cut ∉ text) :
    ∀ c ∈ text, (c != cut) = true := by
  intro c member
  have other : c ≠ cut := fun same => absent (same ▸ member)
  exact bne_iff_ne.2 other

theorem slash_notMem_lastPart (path : String) : '/' ∉ (lastPart path).toList := by
  have noSlash := List.all_eq_true.1 (List.all_takeWhile (p := notSlash) (l := path.toList.reverse))
  intro member
  rw [lastPart, String.toList_ofList, List.mem_reverse] at member
  have passes := noSlash '/' member
  contradiction

theorem exists_leads (path : String) : ∃ front, Leads front ∧ path = front ++ lastPart path := by
  have parts := congrArg List.reverse
    (List.takeWhile_append_dropWhile (p := notSlash) (l := path.toList.reverse))
  rw [List.reverse_append, List.reverse_reverse] at parts
  refine ⟨String.ofList (path.toList.reverse.dropWhile notSlash).reverse, ?_, ?_⟩
  · have stops := List.head?_dropWhile_not notSlash path.toList.reverse
    cases rest : path.toList.reverse.dropWhile notSlash with
    | nil => exact .inl rfl
    | cons c before =>
      rw [rest] at stops
      obtain rfl : c = '/' := by simpa [notSlash] using stops
      refine .inr ⟨String.ofList before.reverse, ?_⟩
      rw [List.reverse_cons, String.ofList_append]
  · rw [lastPart, ← String.ofList_append, parts, String.ofList_toList]

/-- What is read backwards up to a slash is the name that stands behind the front. -/
theorem takeWhile_notSlash_of_leads {front : String} (leads : Leads front) {name : List Char}
    (whole : '/' ∉ name) :
    (name.reverse ++ front.toList.reverse).takeWhile notSlash = name.reverse := by
  have passes : ∀ c ∈ name.reverse, notSlash c = true :=
    bne_of_notMem fun member => whole (List.mem_reverse.1 member)
  rw [List.takeWhile_append_of_pos passes]
  obtain rfl | ⟨before, rfl⟩ := leads
  · exact List.append_nil _
  · have stops : (before ++ "/").toList.reverse = '/' :: before.toList.reverse := by
      rw [String.toList_append, List.reverse_append]
      rfl
    rw [stops, List.takeWhile_cons_of_neg (by decide), List.append_nil]

theorem lastPart_append {front name : String} (leads : Leads front) (whole : '/' ∉ name.toList) :
    lastPart (front ++ name) = name := by
  rw [lastPart, String.toList_append, List.reverse_append,
    takeWhile_notSlash_of_leads leads whole, List.reverse_reverse, String.ofList_toList]

theorem Leads.append {front before : String} (leads : Leads front) (others : Leads before) :
    Leads (front ++ before) := by
  obtain rfl | ⟨middle, rfl⟩ := others
  · rwa [String.append_empty]
  · exact .inr ⟨front ++ middle, String.append_assoc.symm⟩

/-- What stands in front of the names in a directory. -/
theorem exists_leads_join (directory : String) :
    ∃ front, Leads front ∧ (front = directory ∨ front = directory ++ "/") ∧
      ∀ name, join directory name = front ++ name := by
  unfold join
  split
  · rename_i isFront
    refine ⟨directory, ?_, .inl rfl, fun name => rfl⟩
    rcases Bool.or_eq_true .. ▸ isFront with empty | ends
    · exact .inl (String.isEmpty_iff.1 empty)
    · rw [← String.endsWith_toSlice, String.Slice.endsWith_string_iff] at ends
      obtain ⟨before, slash⟩ := ends
      refine .inr ⟨String.ofList before, String.toList_injective ?_⟩
      rw [String.toList_append, String.toList_ofList, slash, String.copy_toSlice]
  · exact ⟨directory ++ "/", .inr ⟨directory, rfl⟩, .inr rfl, fun name => rfl⟩

theorem utf8ByteSize_join_le (directory name : String) :
    (join directory name).utf8ByteSize ≤ directory.utf8ByteSize + 1 + name.utf8ByteSize := by
  have slash : "/".utf8ByteSize = 1 := rfl
  obtain ⟨front, -, rfl | rfl, joined⟩ := exists_leads_join directory
  · rw [joined, String.utf8ByteSize_append]
    omega
  · rw [joined, String.utf8ByteSize_append, String.utf8ByteSize_append]
    omega

theorem lastPart_join (directory name : String) :
    lastPart (join directory name) = lastPart name := by
  obtain ⟨front, leads, -, joined⟩ := exists_leads_join directory
  obtain ⟨before, others, parts⟩ := exists_leads name
  rw [joined, congrArg (front ++ ·) parts, ← String.append_assoc]
  exact lastPart_append (leads.append others) (slash_notMem_lastPart name)

theorem components_slash (before : String) {name : String} (whole : '/' ∉ name.toList) :
    components (before ++ "/" ++ name) = components before ++ [name] := by
  have slash : "/".toList = ['/'] := rfl
  rw [components, String.toList_append, String.toList_append, slash, List.append_assoc,
    List.singleton_append, List.splitOn_append_cons_self, List.splitOn_eq_singleton whole,
    List.map_append, List.map_singleton, String.ofList_toList]
  rfl

/-- The names in a path end with the last one. -/
theorem exists_components (path : String) :
    ∃ front, components path = front ++ [lastPart path] := by
  obtain ⟨front, leads, parts⟩ := exists_leads path
  have whole := slash_notMem_lastPart path
  have split := congrArg components parts
  obtain rfl | ⟨before, rfl⟩ := leads
  · refine ⟨[], split.trans ?_⟩
    rw [String.empty_append, components, List.splitOn_eq_singleton whole, List.map_singleton,
      String.ofList_toList]
    rfl
  · exact ⟨components before, split.trans (components_slash before whole)⟩

theorem eq_of_reverse {name other : String} (same : name.toList.reverse = other.toList.reverse) :
    name = other :=
  String.toList_injective (List.reverse_inj.1 same)

theorem dropTail_eq_self {path : List Char} (noSlash : ∀ rest, path ≠ '/' :: rest)
    (noDot : ∀ rest, path ≠ '.' :: '/' :: rest) : dropTail path = path := by
  unfold dropTail
  split
  · exact absurd rfl (noSlash _)
  · exact absurd rfl (noDot _)
  · rfl

/-- Nothing is dropped behind a name. -/
theorem dropTail_append {name : String} (proper : Proper name) (front : List Char) :
    dropTail (name.toList.reverse ++ front) = name.toList.reverse ++ front := by
  have whole : '/' ∉ name.toList.reverse := fun member => proper.whole (List.mem_reverse.1 member)
  rcases spelt : name.toList.reverse with _ | ⟨c, _ | ⟨d, more⟩⟩
  · exact absurd (eq_of_reverse spelt) proper.nonempty
  · have notSlash : c ≠ '/' := fun slash => whole (slash ▸ spelt ▸ List.mem_cons_self)
    have notDot : c ≠ '.' := by
      rintro rfl
      exact proper.notHere (eq_of_reverse spelt)
    exact dropTail_eq_self (fun rest same => notSlash (List.cons.inj same).1)
      (fun rest same => notDot (List.cons.inj same).1)
  · have notSlash : c ≠ '/' := fun slash => whole (slash ▸ spelt ▸ List.mem_cons_self)
    have notSlash' : d ≠ '/' :=
      fun slash => whole (slash ▸ spelt ▸ List.mem_cons_of_mem _ List.mem_cons_self)
    exact dropTail_eq_self (fun rest same => notSlash (List.cons.inj same).1)
      (fun rest same => notSlash' (List.cons.inj (List.cons.inj same).2).1)

/-- The name at the end is found behind whatever stands in front of it. -/
theorem lastName?_append {front name : String} (leads : Leads front) (proper : Proper name) :
    lastName? (front ++ name).toList = some name.toList.reverse := by
  rw [lastName?, String.toList_append, List.reverse_append, dropTail_append proper,
    takeWhile_notSlash_of_leads leads proper.whole]
  split
  · exact absurd (eq_of_reverse ‹_›) proper.nonempty
  · exact absurd (eq_of_reverse ‹_›) proper.notHere
  · exact absurd (eq_of_reverse ‹_›) proper.notAbove
  · rfl

/-- The last name decides on the extension. -/
theorem extension?_append {front name : String} (leads : Leads front) (proper : Proper name) :
    extension? (front ++ name) = extension? name := by
  have alone : lastName? name.toList = some name.toList.reverse := by
    have none := lastName?_append (.inl rfl) proper
    rwa [String.empty_append] at none
  rw [extension?, extension?, lastName?_append leads proper, alone]

/-- The extension stands behind the last dot, unless this dot begins the name. -/
theorem divide_append {extension stem : List Char} (noDot : '.' ∉ extension)
    (inhabited : stem ≠ []) : divide (extension ++ '.' :: stem) = (stem, some extension) := by
  have passes : ∀ c ∈ extension, notDot c = true := bne_of_notMem noDot
  have dropped : (extension ++ '.' :: stem).dropWhile notDot = '.' :: stem :=
    List.dropWhile_append_of_pos passes
  have taken : (extension ++ '.' :: stem).takeWhile notDot = extension :=
    (List.takeWhile_append_of_pos passes).trans (List.append_nil _)
  rw [divide, dropped, taken]
  split
  · rename_i none
    cases none
  · rename_i single
    exact absurd (List.cons.inj single).2 inhabited
  · rename_i c rest notSingle spelt
    rw [(List.cons.inj spelt).2]

theorem divide_eq (name : List Char) :
    divide name = (name, none) ∨ ∃ stem extension,
      divide name = (stem, some extension) ∧ name = extension ++ '.' :: stem ∧ stem ≠ [] := by
  have parts := List.takeWhile_append_dropWhile (p := notDot) (l := name)
  have stops := List.head?_dropWhile_not notDot name
  unfold divide
  split
  · exact .inl rfl
  · exact .inl rfl
  · rename_i c stem notSingle rest
    rw [rest] at parts stops
    obtain rfl : c = '.' := by simpa [notDot] using stops
    refine .inr ⟨stem, name.takeWhile notDot, rfl, parts.symm, ?_⟩
    rintro rfl
    exact notSingle rfl rfl

/-- A name with another extension. A stem that is a dot is left without one. -/
def renamed (name extension : String) : String :=
  if (divide name.toList.reverse).1 = ['.'] then ".."
  else String.ofList (divide name.toList.reverse).1.reverse ++ "." ++ extension

/-- Another extension leaves what stands in front of the last name alone. -/
theorem withExtension_append {front name : String} (leads : Leads front) (proper : Proper name)
    (extension : String) :
    withExtension (front ++ name) extension = front ++ renamed name extension := by
  have found := lastName?_append leads proper
  have backwards :
      (front ++ name).toList.reverse = name.toList.reverse ++ front.toList.reverse := by
    rw [String.toList_append, List.reverse_append]
  have length : (name.toList.reverse ++ front.toList.reverse).length = (front ++ name).length := by
    rw [← backwards, List.length_reverse, String.length_toList]
  unfold withExtension renamed
  rw [found]
  simp only [backwards, dropTail_append proper, length, and_true]
  rcases divide_eq name.toList.reverse with whole | ⟨stem, old, parts, spelt, -⟩
  · have notDot : name.toList.reverse ≠ ['.'] := fun dot => proper.notHere (eq_of_reverse dot)
    simp only [whole, if_neg notDot, Nat.sub_self, List.drop_zero, List.reverse_append,
      List.reverse_reverse, String.ofList_append, String.ofList_toList, String.append_assoc]
  · have behind : name.toList.reverse.length - stem.length = (old ++ ['.']).length := by
      rw [spelt, List.length_append, List.length_append, List.length_cons, List.length_singleton]
      omega
    have text : name.toList.reverse ++ front.toList.reverse =
        old ++ ['.'] ++ (stem ++ front.toList.reverse) := by
      rw [spelt, List.append_assoc, List.append_assoc]
      rfl
    simp only [parts, behind, Option.getD_some]
    split
    · rename_i isDot
      have dots : (old ++ ['.'] ++ (['.'] ++ front.toList.reverse)).drop old.length =
          ['.', '.'] ++ front.toList.reverse := by
        rw [List.append_assoc, List.drop_left]
        rfl
      rw [text, isDot, dots, List.reverse_append, List.reverse_reverse, String.ofList_append,
        String.ofList_toList]
      rfl
    · rw [text, List.drop_left, List.reverse_append, List.reverse_reverse, String.ofList_append,
        String.ofList_toList]
      simp only [String.append_assoc]

theorem slash_notMem_renamed {name extension : String} (whole : '/' ∉ name.toList)
    (noSlash : '/' ∉ extension.toList) : '/' ∉ (renamed name extension).toList := by
  have inStem : '/' ∉ (divide name.toList.reverse).1 := by
    intro member
    rcases divide_eq name.toList.reverse with same | ⟨stem, old, parts, spelt, -⟩
    · rw [same] at member
      exact whole (List.mem_reverse.1 member)
    · rw [parts] at member
      have inName : '/' ∈ name.toList.reverse :=
        spelt ▸ List.mem_append_right _ (List.mem_cons_of_mem _ member)
      exact whole (List.mem_reverse.1 inName)
  unfold renamed
  split
  · decide
  · have slash : '/' ∉ ".".toList := by decide
    simp only [String.toList_append, String.toList_ofList, List.mem_append, List.mem_reverse,
      inStem, slash, noSlash, or_self, not_false_eq_true]

/-- A name that has been given an extension has this extension. -/
theorem extension?_renamed {name extension : String} (proper : Proper name)
    (isName : Proper (renamed name extension)) (noDot : '.' ∉ extension.toList) :
    extension? (renamed name extension) = some extension := by
  have found := lastName?_append (.inl rfl) isName
  rw [String.empty_append] at found
  have inhabited : (divide name.toList.reverse).1 ≠ [] := by
    rcases divide_eq name.toList.reverse with same | ⟨stem, old, parts, -, inhabited⟩
    · rw [same]
      exact fun empty => proper.nonempty (eq_of_reverse empty)
    · rwa [parts]
  have noDot' : '.' ∉ extension.toList.reverse := fun member => noDot (List.mem_reverse.1 member)
  by_cases isDot : (divide name.toList.reverse).1 = ['.']
  · exact absurd (if_pos isDot) isName.notAbove
  · have text : (renamed name extension).toList.reverse =
        extension.toList.reverse ++ '.' :: (divide name.toList.reverse).1 := by
      rw [renamed, if_neg isDot, String.toList_append, String.toList_append, String.toList_ofList,
        List.reverse_append, List.reverse_append, List.reverse_reverse]
      rfl
    rw [extension?, found, text]
    simp only [Option.bind_eq_bind, Option.bind_some, divide_append noDot' inhabited,
      List.reverse_reverse, String.ofList_toList]
    rfl

/-- What a name with an extension becomes with another one. -/
theorem exists_stem {name extension : String} (proper : Proper name)
    (has : extension? name = some extension) :
    ∃ stem, stem ≠ "" ∧ name = stem ++ "." ++ extension ∧
      ∀ other, renamed name other = if stem = "." then ".." else stem ++ "." ++ other := by
  have found := lastName?_append (.inl rfl) proper
  rw [String.empty_append] at found
  rw [extension?, found, Option.bind_eq_bind, Option.bind_some] at has
  rcases divide_eq name.toList.reverse with whole | ⟨stem, old, parts, spelt, inhabited⟩
  · rw [whole] at has
    cases has
  · rw [parts] at has
    obtain rfl := Option.some.inj has
    have isDot : stem = ['.'] ↔ String.ofList stem.reverse = "." := by
      constructor
      · rintro rfl
        rfl
      · intro dot
        have same := congrArg String.toList dot
        rw [String.toList_ofList] at same
        exact List.reverse_inj.1 same
    refine ⟨String.ofList stem.reverse, ?_, ?_, fun other => ?_⟩
    · intro empty
      have same := congrArg String.toList empty
      rw [String.toList_ofList] at same
      exact inhabited (List.reverse_eq_nil_iff.1 same)
    · apply eq_of_reverse
      simp only [spelt, String.toList_append, String.toList_ofList, List.reverse_append,
        List.reverse_reverse]
      rfl
    · rw [renamed, parts]
      simp only [isDot]

/-- The last name after another extension. -/
theorem lastPart_withExtension {path extension : String} (proper : Proper (lastPart path))
    (noSlash : '/' ∉ extension.toList) :
    lastPart (withExtension path extension) = renamed (lastPart path) extension := by
  obtain ⟨front, leads, parts⟩ := exists_leads path
  have renames := withExtension_append leads proper extension
  rw [← parts] at renames
  rw [renames]
  exact lastPart_append leads (slash_notMem_renamed proper.whole noSlash)

/-- A path stays the same where its last name does. -/
theorem withExtension_eq_self {path extension : String} (proper : Proper (lastPart path))
    (same : renamed (lastPart path) extension = lastPart path) :
    withExtension path extension = path := by
  obtain ⟨front, leads, parts⟩ := exists_leads path
  have renames := withExtension_append leads proper extension
  rw [← parts, same] at renames
  exact renames.trans parts.symm

/-- The extension of a path is that of its last name. -/
theorem extension?_lastPart {path : String} (proper : Proper (lastPart path)) :
    extension? (lastPart path) = extension? path := by
  obtain ⟨front, leads, parts⟩ := exists_leads path
  have same := extension?_append leads proper
  rw [← parts] at same
  exact same.symm

end Jack.Path
