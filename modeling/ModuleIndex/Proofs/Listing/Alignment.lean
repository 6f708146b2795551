import ModuleIndex.Listing.View
import ModuleIndex.Proofs.Index.Lookup
import ModuleIndex.Proofs.Style.Width

/-!
# Lines of a listing

Each row has a line, in order. The descriptions in a group of rows start in one column, right
behind two spaces where the label is the widest one. In the sidebar a group is the entries of one
section.
-/

namespace ModuleIndex.Listing

open Style (Theme)

/-! ## Widths -/

/-- The columns that a label takes on a screen. Escape sequences take none. -/
def Row.columns (r : Row) : Nat := (Style.plainText r.label).length

/-- The column is two behind the widest label. -/
def IsColumnOf (column : Nat) (rows : List Row) : Prop :=
  (∀ r ∈ rows, r.columns + 2 ≤ column) ∧ (rows ≠ [] → ∃ r ∈ rows, r.columns + 2 = column)

theorem isColumnOf_descriptionColumn (rows : List Row) :
    IsColumnOf (descriptionColumn rows) rows := by
  have hcolumn : descriptionColumn rows = ((rows.map Row.columns).max?.getD 0) + 2 := by
    rw [descriptionColumn, List.foldl_max, Nat.zero_max]
    simp only [Style.width_eq_length]
    rfl
  rw [hcolumn]
  cases hmax : (rows.map Row.columns).max? with
  | none =>
    obtain rfl : rows = [] := by simpa using hmax
    exact ⟨by simp, by simp⟩
  | some widest =>
    obtain ⟨hmem, hle⟩ := List.max?_eq_some_iff.mp hmax
    rw [List.forall_mem_map] at hle
    obtain ⟨r, hr, rfl⟩ := List.mem_map.mp hmem
    exact ⟨fun s hs => Nat.add_le_add_right (hle s hs) 2, fun _ => ⟨r, hr, rfl⟩⟩

/-! ## Lines -/

/-- The line of a row: the label, and the description behind spaces that reach up to its column.
A row without description has no spaces either. -/
inductive LineOf (theme? : Option Theme) (column : Nat) (r : Row) : List Char → Prop
  | bare (h : Description.format theme? r.description = []) :
      LineOf theme? column r (Style.tokenText theme? r.label)
  | described (h : Description.format theme? r.description ≠ []) {spaces : Nat}
      (hspaces : 2 ≤ spaces) (hcolumn : r.columns + spaces = column) :
      LineOf theme? column r (Style.tokenText theme? r.label ++ List.replicate spaces ' ' ++
        Description.format theme? r.description)

/-- One line for each row, in order, and one column for all descriptions. -/
def Aligned (theme? : Option Theme) (rows : List Row) (lines : List (List Char)) : Prop :=
  ∃ column, IsColumnOf column rows ∧ List.Forall₂ (LineOf theme? column) rows lines

theorem lineOf_text (theme? : Option Theme) {column : Nat} {r : Row} (h : r.columns + 2 ≤ column) :
    LineOf theme? column r (r.text theme? column) := by
  unfold Row.text
  dsimp only
  split
  · next hdescription => exact .bare hdescription
  · next c description hdescription =>
    rw [← hdescription, Style.width_eq_length]
    have hne : Description.format theme? r.description ≠ [] := by simp [hdescription]
    unfold Row.columns at h
    exact .described hne (by omega) (by unfold Row.columns; omega)

theorem exists_aligned (theme? : Option Theme) (indent : List Char) (rows : List Row) :
    ∃ lines, Aligned theme? rows lines ∧
      alignedText theme? indent rows = lines.flatMap (indent ++ · ++ ['\n']) := by
  have hcolumn := isColumnOf_descriptionColumn rows
  refine ⟨rows.map (·.text theme? (descriptionColumn rows)), ⟨_, hcolumn, ?_⟩, ?_⟩
  · rw [List.forall₂_map_right_iff, List.forall₂_same]
    exact fun r hr => lineOf_text theme? (hcolumn.1 r hr)
  · rw [alignedText, List.flatMap_map]

/-! ## Labels -/

namespace Item

/-- How the name of an item reads: `!` stands behind that of a macro. -/
def nameText (item : Item) : List Char :=
  item.entry.name.toList ++ if item.category = .macroRules then ['!'] else []

/-- How an item reads in a list: what it is, in six columns at least, and its path and name. -/
def rowText (item : Item) : List Char :=
  item.category.declarator.toList ++
    List.replicate (6 - item.category.declarator.length) ' ' ++
    ' ' :: item.modulePath.flatMap (·.toList ++ [':', ':']) ++ item.nameText

theorem plainText_nameTokens (item : Item) :
    Style.plainText (nameTokens item.category item.entry.name) = item.nameText := by
  unfold nameText
  cases item.category <;> simp [nameTokens, Style.plainText, Style.Token.text]

theorem plainText_row (item : Item) : Style.plainText item.row = item.rowText := by
  have hpath : Style.plainText (Style.tokensOf item.pathPieces) =
      item.modulePath.flatMap (·.toList ++ [':', ':']) ++ item.nameText := by
    simp only [pathPieces, Style.tokensOf, Style.Piece.tokens, Style.tokensOf_map_token,
      Style.plainText_append, Style.plainText_path, plainText_nameTokens, List.append_nil]
  simp only [row, rowText, declaratorWidth, Style.tokensOf, Style.Piece.tokens,
    Style.plainText_append, Style.plainText_cons, Style.plainText_spaces, hpath]
  simp [Style.Token.text]

end Item

/-! ## Listings -/

/-- The text of a section in the sidebar: the title, and below it the lines of the entries. -/
def IsSection (theme? : Option Theme) (s : Section) (text : List Char) : Prop :=
  ∃ lines, Aligned theme?
      (s.entries.map fun e => ⟨nameTokens s.category e.name, e.description⟩) lines ∧
    text = Style.heading theme? s.category.title.toList ++
      '\n' :: lines.flatMap ([' ', ' '] ++ · ++ ['\n'])

theorem exists_sections {index : Index} (h : index.WellFormed) (theme? : Option Theme) :
    ∃ texts, List.Forall₂ (IsSection theme?) index.sections texts ∧
      sidebarText theme? index = Text.join ['\n'] texts := by
  refine ⟨_, ?_, rfl⟩
  rw [Index.categories, List.map_map, List.forall₂_map_right_iff, List.forall₂_same]
  intro s hs
  -- The entries are looked up by the key, which no other section has.
  obtain ⟨lines, hlines, htext⟩ :=
    exists_aligned theme? [' ', ' '] (sidebarRows s.category s.entries)
  refine ⟨lines, hlines, ?_⟩
  rw [Function.comp_apply, Index.entriesOf_of_mem h hs, sidebarSection, htext]

/-- A list has an aligned line for each item. The sidebar has a part for each section of a built
index, with an aligned line for each of its entries, and an empty line between two parts. The
labels read as the items and their names do. -/
theorem listings_aligned (theme? : Option Theme) :
    (∀ items : List Item, ∃ lines,
      Aligned theme? (items.map fun item => ⟨item.row, item.entry.description⟩) lines ∧
        listText theme? items = lines.flatMap (· ++ ['\n'])) ∧
    (∀ index : Index, index.Built → ∃ texts,
      List.Forall₂ (IsSection theme?) index.sections texts ∧
        sidebarText theme? index = Text.join ['\n'] texts) ∧
    ∀ item : Item, Style.plainText item.row = item.rowText ∧
      Style.plainText (nameTokens item.category item.entry.name) = item.nameText :=
  ⟨fun _ => exists_aligned theme? [] _, fun _ h => exists_sections h.wellFormed theme?,
    fun item => ⟨item.plainText_row, item.plainText_nameTokens⟩⟩

/-- A category without entries, one with names of two widths and an item that has no description,
and one that is longer than its column in the list. -/
theorem listings_aligned_three_sections :
    let index : Index := ⟨[⟨.module, []⟩,
      ⟨.macroRules, [⟨"log", "Logs *any* message."⟩, ⟨"log_enabled", ""⟩]⟩,
      ⟨.primitive, [⟨"ü8", "A byte."⟩]⟩]⟩
    let items := itemsOf ["log"] index.items
    index.Built ∧
      (∃ texts, List.Forall₂ (IsSection (some .dark)) index.sections texts ∧
        sidebarText (some .dark) index = Text.join ['\n'] texts) ∧
      sidebarText (some .dark) index =
        ["\x1b[1;48;2;180;180;180;38;2;0;0;0m Modules \x1b[0m", "",
          "\x1b[1;48;2;180;180;180;38;2;0;0;0m Macros \x1b[0m",
          "  \x1b[38;2;211;208;200mlog\x1b[0m!          Logs \x1b[3many\x1b[0m message.",
          "  \x1b[38;2;211;208;200mlog_enabled\x1b[0m!", "",
          "\x1b[1;48;2;180;180;180;38;2;0;0;0m Primitive Types \x1b[0m",
          "  \x1b[38;2;255;204;102mü8\x1b[0m  A byte."].flatMap (·.toList ++ ['\n']) ∧
      (∃ lines, Aligned none (items.map fun item => ⟨item.row, item.entry.description⟩) lines ∧
        listText none items = lines.flatMap (· ++ ['\n'])) ∧
      listText none items =
        ["macro  log::log!          Logs any message.", "macro  log::log_enabled!",
          "primitive log::ü8         A byte."].flatMap (·.toList ++ ['\n']) := by
  intro index items
  have hbuilt : index.Built := .ofSections [("mod", []),
    ("macro", [⟨"log", "Logs *any* message."⟩, ⟨"log_enabled", ""⟩]),
    ("primitive", [⟨"ü8", "A byte."⟩])] rfl
  obtain ⟨hlist, -, -⟩ := listings_aligned none
  obtain ⟨-, hsidebar, -⟩ := listings_aligned (some .dark)
  exact ⟨hbuilt, hsidebar index hbuilt, by decide +kernel, hlist items, by decide +kernel⟩

end ModuleIndex.Listing
