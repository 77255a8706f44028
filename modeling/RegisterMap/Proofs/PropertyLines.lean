import RegisterMap.Proofs.AccessorNumbers

namespace RegisterMap.Accessors

/-- Lines stand in a file one right after the other. -/
def Stand (lines : List Line) (content : String) : Prop :=
  lines.map (fun l => l.text.toList) <:+: textLines content

theorem Stand.mono {lines more : List Line} {content : String} (stand : Stand more content)
    (part : lines <:+: more) : Stand lines content :=
  (part.map _).trans stand

/-- All properties, those of fields first. -/
def properties (a : Accessors) : List Property :=
  a.fieldClasses.flatMap FieldClass.properties ++ a.registers.map RegisterProperty.word

/-- A property is two methods, each below a line of its own. -/
theorem Property.lines_eq (p : Property) : p.lines =
    [Line.plain "    @property"] ++ ([Line.plain ("    def " ++ p.name ++ "(self):"),
        docLine "        " p.description p.access] ++ p.readLines) ++
      ([Line.blank, Line.plain ("    @" ++ p.name ++ ".setter")] ++
        Line.plain ("    def " ++ p.name ++ "(self, val):") :: p.writeLines) := by
  simp [lines]

theorem FieldClass.property_within {c : FieldClass} {p : Property} (inside : p ∈ c.properties) :
    p.lines <:+: c.lines :=
  calc p.lines
      <:+: Line.blank :: p.lines := List.infix_cons List.infix_rfl
    _ <:+: c.properties.flatMap fun p => Line.blank :: p.lines :=
      List.infix_of_mem_flatten (List.mem_map_of_mem inside)
    _ <:+: c.lines := (List.suffix_append ..).isInfix

/-- The lines of a property stay together in the file. -/
theorem property_within {a : Accessors} {p : Property} (inside : p ∈ a.properties) :
    p.lines <:+: a.lines := by
  rcases List.mem_append.mp inside with field | register
  · obtain ⟨c, among, part⟩ := List.mem_flatMap.mp field
    have own : [Line.blank] ++ c.lines ++ [Line.blank] <:+:
        a.fieldClasses.flatMap fun c => Line.blank :: c.lines ++ [Line.blank] := by
      rw [List.flatMap_def]
      exact List.infix_of_mem_flatten (List.mem_map.mpr ⟨c, among, rfl⟩)
    calc p.lines
        <:+: c.lines := FieldClass.property_within part
      _ <:+: _ := List.infix_append [Line.blank] _ [Line.blank]
      _ <:+: a.fieldClasses.flatMap fun c => Line.blank :: c.lines ++ [Line.blank] := own
      _ <:+: a.lines := List.infix_append ..
  · obtain ⟨q, among, rfl⟩ := List.mem_map.mp register
    calc q.word.lines
        <:+: q.lines := List.infix_append [Line.blank] _ _
      _ <:+: a.registers.flatMap RegisterProperty.lines :=
        List.infix_of_mem_flatten (List.mem_map.mpr ⟨q, among, rfl⟩)
      _ <:+: a.mapClass := (List.suffix_append ..).isInfix
      _ <:+: a.lines := ((List.suffix_cons ..).trans (List.suffix_append ..)).isInfix

section

variable {m : AddressMap}

theorem mem_properties_iff {p : Property} : p ∈ (ofMap m).properties ↔
    ∃ r ∈ m.registers, (∃ f ∈ r.fields, p = .ofField r.name f) ∨ p = .ofRegister r := by
  simp only [properties, ofMap, List.mem_append, List.mem_flatMap, List.mem_map]
  constructor
  · rintro (⟨c, ⟨r, among, rfl⟩, inside⟩ | ⟨q, ⟨r, among, rfl⟩, rfl⟩)
    · obtain ⟨f, within, rfl⟩ := List.mem_map.mp inside
      exact ⟨r, among, Or.inl ⟨f, within, rfl⟩⟩
    · exact ⟨r, among, Or.inr rfl⟩
  · rintro ⟨r, among, ⟨f, within, rfl⟩ | rfl⟩
    · exact Or.inl ⟨_, ⟨r, among, rfl⟩, List.mem_map_of_mem within⟩
    · exact Or.inr ⟨_, ⟨r, among, rfl⟩, rfl⟩

theorem stand_property (whole : m.Unbroken) (path : Path) {p : Property}
    (inside : p ∈ (ofMap m).properties) : Stand p.lines (artifact path m).content := by
  rw [Stand, content_artifact, Line.textLines_file_of_unbroken (reads_lines whole).unbroken]
  exact ((property_within inside).map _).trans (List.prefix_append ..).isInfix

end

end RegisterMap.Accessors
