import DataClass.Proofs.Accessor.Marked
import Mathlib.Data.List.Basic
namespace DataClass

/-! The scan for marked elements. It finds every declaration and every member that carries the marker, at
any depth and each once, in the order of their addresses, and nothing else.

`Program.elementAt?` says what stands at an address; the scan is compared with it. -/

namespace Path

theorem below_lt (path : Path) {index later : Nat} (before : index < later) (first second : Path) :
    path ++ index :: first < path ++ later :: second := by
  induction path with
  | nil => exact List.cons_lt_cons_iff.mpr (.inl before)
  | cons head rest ih => exact List.cons_lt_cons_iff.mpr (.inr ⟨rfl, ih⟩)

theorem lt_below (path : Path) (index : Nat) (below : Path) : path < path ++ index :: below := by
  induction path with
  | nil => exact List.nil_lt_cons index below
  | cons head rest ih => exact List.cons_lt_cons_iff.mpr (.inr ⟨rfl, ih⟩)

end Path

namespace Accessor

/-- What can stand at an address: a declaration or a member. -/
inductive Element where
  | type (span : Span) (decl : Class)
  | field (span : Span) (decl : Field)
  | method (span : Span) (decl : Method)
  | constructor (span : Span) (decl : Constructor)
  | initializer (span : Span) (body : List Stmt)
  | function (span : Span) (decl : Method)
  | importPath (span : Span) (path : List String)

namespace Element

def ofMember : Member → Element
  | .field span decl => .field span decl
  | .method span decl => .method span decl
  | .constructor span decl => .constructor span decl
  | .initializer span body => .initializer span body
  | .nested span decl => .type span decl

def ofDeclaration : Declaration → Element
  | .importPath span path => .importPath span path
  | .type span decl => .type span decl
  | .function span decl => .function span decl

def kind : Element → ElementKind
  | .type _ _ => .type
  | .field _ _ => .field
  | .method _ _ => .method
  | .constructor _ _ => .constructor
  | .initializer _ _ => .initializer
  | .function _ _ => .function
  | .importPath _ _ => .importPath

def tags : Element → List Tag
  | .type _ decl => decl.tags
  | .field _ decl => decl.tags
  | .method _ decl | .function _ decl => decl.tags
  | .constructor _ decl => decl.tags
  | .initializer _ _ | .importPath _ _ => []

def name? : Element → Option String
  | .type _ decl => some decl.name
  | .field _ decl => some decl.name
  | .method _ decl | .function _ decl => some decl.name
  | .constructor _ _ | .initializer _ _ | .importPath _ _ => none

def span : Element → Span
  | .type span _ | .field span _ | .method span _ | .constructor span _ | .initializer span _
  | .function span _ | .importPath span _ => span

def class? : Element → Option Class
  | .type _ decl => some decl
  | _ => none

/-- The entry of the element in a scan. Without a name it has that of its kind. -/
def entry (path : Path) (element : Element) : TaggedElement :=
  ⟨path, element.kind, element.name?.getD element.kind.name, element.span⟩

/-- The element at an address below this one: only classes have elements inside. -/
def descend? (element : Element) : Path → Option Element
  | [] => some element
  | index :: rest =>
      (element.class?.bind (·.members[index]?)).bind fun member => (ofMember member).descend? rest

@[simp] theorem class?_ofMember (member : Member) : (ofMember member).class? = member.nested? := by
  cases member <;> rfl

@[simp] theorem class?_ofDeclaration (declaration : Declaration) :
    (ofDeclaration declaration).class? = declaration.class? := by
  cases declaration <;> rfl

theorem descend?_class? (element : Element) (path : Path) :
    (element.descend? path).bind Element.class? = element.class?.bind (·.descend? path) := by
  induction path generalizing element with
  | nil => cases element <;> rfl
  | cons index rest ih =>
      cases element with
      | type span decl =>
          simp only [descend?, class?, Option.bind_some, Class.descend?]
          cases decl.members[index]? with
          | none => rfl
          | some member => simpa using ih (ofMember member)
      | _ => rfl

end Element

/-- The element at an address. -/
def elementAt? (program : Program) : Path → Option Element
  | [] => none
  | index :: rest =>
      program.declarations[index]?.bind fun declaration =>
        (Element.ofDeclaration declaration).descend? rest

/-- An address leads to a class if the element there is one. -/
theorem elementAt?_class? (program : Program) (path : Path) :
    (elementAt? program path).bind Element.class? = program.classAt? path := by
  cases path with
  | nil => rfl
  | cons index rest =>
      rw [elementAt?, Program.classAt?]
      cases program.declarations[index]? with
      | none => rfl
      | some declaration => simpa using Element.descend?_class? (.ofDeclaration declaration) rest

/-! ### What a scan finds -/

/-- An entry of a marked element at or below an address, where `start` stands. -/
def Listed (marker : Marker) (path : Path) (start : Element) (entry : TaggedElement) : Prop :=
  ∃ below part, start.descend? below = some part ∧ marker.isOn part.tags = true ∧
    entry = part.entry (path ++ below)

variable {marker : Marker} {path : Path} {entry : TaggedElement}

theorem Listed.path_eq {start : Element} (listed : Listed marker path start entry) :
    ∃ below, entry.path = path ++ below := by
  obtain ⟨below, _, _, _, rfl⟩ := listed
  exact ⟨below, rfl⟩

theorem listed_iff {start : Element} :
    Listed marker path start entry ↔
      (marker.isOn start.tags = true ∧ entry = start.entry path) ∨
        ∃ index member, start.class?.bind (·.members[index]?) = some member ∧
          Listed marker (path ++ [index]) (.ofMember member) entry := by
  constructor
  · rintro ⟨below, part, reached, marked, rfl⟩
    cases below with
    | nil =>
        obtain rfl := Option.some.inj reached
        exact .inl ⟨marked, by rw [List.append_nil]⟩
    | cons index rest =>
        obtain ⟨member, held, deeper⟩ := Option.bind_eq_some_iff.mp reached
        exact .inr ⟨index, member, held, rest, part, deeper, marked, by simp⟩
  · rintro (⟨marked, rfl⟩ | ⟨index, member, held, below, part, reached, marked, rfl⟩)
    · exact ⟨[], start, rfl, marked, by rw [List.append_nil]⟩
    · exact ⟨index :: below, part, by rw [Element.descend?, held]; exact reached, marked, by simp⟩

/-- Without members inside, only the element itself can be listed. -/
theorem listed_leaf {start : Element} (leaf : start.class? = none) :
    Listed marker path start entry ↔ marker.isOn start.tags = true ∧ entry = start.entry path := by
  rw [listed_iff, leaf]
  simp

theorem exists_getElem?_cons {α : Type} {first : α} {rest : List α} {holds : Nat → α → Prop} :
    (∃ index value, (first :: rest)[index]? = some value ∧ holds index value) ↔
      holds 0 first ∨ ∃ index value, rest[index]? = some value ∧ holds (index + 1) value := by
  constructor
  · rintro ⟨index, value, held, true⟩
    cases index with
    | zero => exact .inl (Option.some.inj held ▸ true)
    | succ index => exact .inr ⟨index, value, held, true⟩
  · rintro (true | ⟨index, value, held, true⟩)
    · exact ⟨0, first, rfl, true⟩
    · exact ⟨index + 1, value, held, true⟩

theorem mem_taggedIf {tags : List Tag} {element : TaggedElement} :
    entry ∈ taggedIf marker tags element ↔ marker.isOn tags = true ∧ entry = element := by
  rw [taggedIf]
  split <;> simp_all

mutual

theorem mem_taggedInMember {path : Path} : (member : Member) →
    (entry ∈ taggedInMember marker path member ↔ Listed marker path (.ofMember member) entry)
  | .nested span decl => by
      rw [taggedInMember]
      exact mem_taggedInClass decl
  | .field _ _ | .method _ _ | .constructor _ _ => by
      rw [taggedInMember, mem_taggedIf, listed_leaf rfl]
      rfl
  | .initializer _ _ => by
      rw [taggedInMember, listed_leaf rfl]
      simp [Element.ofMember, Element.tags, Marker.isOn]

theorem mem_taggedInClass {path : Path} {span : Span} : (decl : Class) →
    (entry ∈ taggedInClass marker path span decl ↔ Listed marker path (.type span decl) entry)
  | ⟨tags, isPublic, name, members⟩ => by
      rw [taggedInClass, List.mem_append, mem_taggedIf, mem_taggedMembersFrom members, listed_iff]
      simp only [Nat.zero_add, Element.class?, Option.bind_some]
      rfl

theorem mem_taggedMembersFrom {path : Path} {index : Nat} : (members : List Member) →
    (entry ∈ taggedMembersFrom marker path index members ↔
      ∃ offset member, members[offset]? = some member ∧
        Listed marker (path ++ [index + offset]) (.ofMember member) entry)
  | [] => by simp [taggedMembersFrom]
  | member :: rest => by
      rw [taggedMembersFrom, List.mem_append, mem_taggedInMember member, mem_taggedMembersFrom rest,
        exists_getElem?_cons]
      simp only [Nat.add_zero, Nat.add_right_comm index 1, ← Nat.add_assoc]

end

theorem mem_taggedInDeclaration {declaration : Declaration} :
    entry ∈ taggedInDeclaration marker path declaration ↔
      Listed marker path (.ofDeclaration declaration) entry := by
  cases declaration with
  | importPath span path =>
      rw [taggedInDeclaration, listed_leaf rfl]
      simp [Element.ofDeclaration, Element.tags, Marker.isOn]
  | type span decl => exact mem_taggedInClass decl
  | function span decl =>
      rw [taggedInDeclaration, mem_taggedIf, listed_leaf rfl]
      rfl

theorem mem_taggedDeclarationsFrom {index : Nat} {declarations : List Declaration} :
    entry ∈ taggedDeclarationsFrom marker index declarations ↔
      ∃ offset declaration, declarations[offset]? = some declaration ∧
        Listed marker [index + offset] (.ofDeclaration declaration) entry := by
  induction declarations generalizing index with
  | nil => simp [taggedDeclarationsFrom]
  | cons declaration rest ih =>
      rw [taggedDeclarationsFrom, List.mem_append, mem_taggedInDeclaration, ih, exists_getElem?_cons]
      simp only [Nat.add_zero, Nat.add_right_comm index 1, ← Nat.add_assoc]

/-- The scan finds the marked elements and nothing else, each under the address where it stands. -/
theorem mem_tagged {program : Program} :
    entry ∈ tagged marker program ↔
      ∃ part, elementAt? program entry.path = some part ∧ marker.isOn part.tags = true ∧
        entry = part.entry entry.path := by
  rw [tagged, mem_taggedDeclarationsFrom]
  simp only [Nat.zero_add]
  constructor
  · rintro ⟨index, declaration, held, below, part, reached, marked, rfl⟩
    refine ⟨part, ?_, marked, rfl⟩
    simp [Element.entry, elementAt?, held, reached]
  · rintro ⟨part, reached, marked, same⟩
    generalize entry.path = place at reached same
    cases place with
    | nil => cases reached
    | cons index below =>
        obtain ⟨declaration, held, deeper⟩ := Option.bind_eq_some_iff.mp reached
        exact ⟨index, declaration, held, below, part, deeper, marked, same⟩

/-! ### The order of a scan -/

/-- The addresses of the entries rise. -/
def InOrder (entries : List TaggedElement) : Prop :=
  entries.Pairwise fun first second => first.path < second.path

theorem inOrder_taggedIf (marker : Marker) (tags : List Tag) (element : TaggedElement) :
    InOrder (taggedIf marker tags element) := by
  rw [taggedIf]
  split
  · exact List.pairwise_singleton _ _
  · exact .nil

mutual

theorem inOrder_taggedInMember (marker : Marker) (path : Path) : (member : Member) →
    InOrder (taggedInMember marker path member)
  | .nested span decl => by
      rw [taggedInMember]
      exact inOrder_taggedInClass marker path span decl
  | .field _ _ | .method _ _ | .constructor _ _ => by
      rw [taggedInMember]
      exact inOrder_taggedIf marker _ _
  | .initializer _ _ => by
      rw [taggedInMember]
      exact .nil

theorem inOrder_taggedInClass (marker : Marker) (path : Path) (span : Span) : (decl : Class) →
    InOrder (taggedInClass marker path span decl)
  | ⟨tags, isPublic, name, members⟩ => by
      rw [taggedInClass]
      refine List.pairwise_append.mpr ⟨inOrder_taggedIf marker _ _,
        inOrder_taggedMembersFrom marker path 0 members, fun own here inside later => ?_⟩
      obtain ⟨_, rfl⟩ := mem_taggedIf.mp here
      obtain ⟨index, _, _, listed⟩ := (mem_taggedMembersFrom members).mp later
      obtain ⟨below, place⟩ := listed.path_eq
      rw [place, List.append_assoc]
      exact Path.lt_below path _ below

theorem inOrder_taggedMembersFrom (marker : Marker) (path : Path) (index : Nat) :
    (members : List Member) → InOrder (taggedMembersFrom marker path index members)
  | [] => .nil
  | member :: rest => by
      rw [taggedMembersFrom]
      refine List.pairwise_append.mpr ⟨inOrder_taggedInMember marker (path ++ [index]) member,
        inOrder_taggedMembersFrom marker path (index + 1) rest, fun first here second later => ?_⟩
      obtain ⟨below, place⟩ := ((mem_taggedInMember member).mp here).path_eq
      obtain ⟨offset, _, _, listed⟩ := (mem_taggedMembersFrom rest).mp later
      obtain ⟨other, behind⟩ := listed.path_eq
      rw [place, behind, List.append_assoc, List.append_assoc]
      exact Path.below_lt path (by omega) below other

end

theorem inOrder_tagged (marker : Marker) (program : Program) : InOrder (tagged marker program) := by
  have each (index : Nat) (declarations : List Declaration) :
      InOrder (taggedDeclarationsFrom marker index declarations) := by
    induction declarations generalizing index with
    | nil => exact .nil
    | cons declaration rest ih =>
        have own : InOrder (taggedInDeclaration marker [index] declaration) := by
          cases declaration with
          | importPath _ _ => exact .nil
          | type span decl => exact inOrder_taggedInClass marker [index] span decl
          | function _ _ => exact inOrder_taggedIf marker _ _
        refine List.pairwise_append.mpr ⟨own, ih (index + 1), fun first here second later => ?_⟩
        obtain ⟨below, place⟩ := (mem_taggedInDeclaration.mp here).path_eq
        obtain ⟨offset, _, _, listed⟩ := mem_taggedDeclarationsFrom.mp later
        obtain ⟨other, behind⟩ := listed.path_eq
        rw [place, behind]
        exact Path.below_lt [] (by omega) below other
  exact each 0 program.declarations

/-! ### The marked classes of a scan -/

theorem insertEntry_behind {entries : List (Path × Span)} {path : Path} {span : Span}
    (behind : ∀ entry ∈ entries, entry.1 < path) :
    insertEntry path span entries = entries ++ [(path, span)] := by
  induction entries with
  | nil => rfl
  | cons first rest ih =>
      obtain ⟨above, others⟩ := List.forall_mem_cons.mp behind
      rw [insertEntry, Path.compare_gt_iff.mpr above, ih others]
      rfl

/-- Entries in order are taken over as they are. -/
theorem classEntries_of_inOrder {elements : List TaggedElement} (order : InOrder elements) :
    classEntries elements =
      (elements.filter (·.kind == .type)).map fun element => (element.path, element.span) := by
  have fold (rest : List TaggedElement) (entries : List (Path × Span)) (rising : InOrder rest)
      (behind : ∀ entry ∈ entries, ∀ element ∈ rest, entry.1 < element.path) :
      rest.foldl (fun entries element => insertEntry element.path element.span entries) entries =
        entries ++ rest.map fun element => (element.path, element.span) := by
    induction rest generalizing entries with
    | nil => exact (List.append_nil entries).symm
    | cons element rest ih =>
        obtain ⟨above, restRising⟩ := List.pairwise_cons.mp rising
        rw [List.foldl_cons, insertEntry_behind fun entry inside =>
          behind entry inside element List.mem_cons_self, ih _ restRising, List.append_assoc]
        · rfl
        · intro entry inside other later
          rcases List.mem_append.mp inside with old | new
          · exact behind entry old other (List.mem_cons_of_mem element later)
          · obtain rfl := List.mem_singleton.mp new
            exact above other later
  exact fold _ [] (order.sublist List.filter_sublist) nofun

/-- Entries for classes lead to these classes. -/
theorem class_of_mem_tagged {program : Program} (found : entry ∈ tagged marker program)
    (isType : entry.kind = .type) : ∃ decl, elementAt? program entry.path =
      some (.type entry.span decl) ∧ program.classAt? entry.path = some decl := by
  obtain ⟨part, reached, _, same⟩ := mem_tagged.mp found
  rw [same] at isType
  cases part with
  | type span decl =>
      have place : entry.span = span := by rw [same]; rfl
      refine ⟨decl, place ▸ reached, ?_⟩
      rw [← elementAt?_class?, reached]
      rfl
  | _ => cases isType

theorem taggedClasses_tagged (marker : Marker) (program : Program) :
    (taggedClasses program (tagged marker program)).map (fun type => (type.path, type.span)) =
      ((tagged marker program).filter (·.kind == .type)).map fun entry => (entry.path, entry.span) := by
  have entries := classEntries_of_inOrder (inOrder_tagged marker program)
  have kept : (taggedClasses program (tagged marker program)).map (fun type => (type.path, type.span)) =
      (classEntries (tagged marker program)).map id := by
    rw [taggedClasses, List.map_filterMap]
    refine List.filterMap_eq_map_iff_forall_eq_some.mpr fun place inside => ?_
    rw [entries] at inside
    obtain ⟨entry, marked, rfl⟩ := List.mem_map.mp inside
    obtain ⟨found, isType⟩ := List.mem_filter.mp marked
    obtain ⟨decl, _, reached⟩ := class_of_mem_tagged found (eq_of_beq isType)
    simp [reached]
  rw [kept, List.map_id, entries]

/-! ### Markers -/

/-- The pieces of a text between its points. -/
structure SplitAtDots (text : String) (pieces : List String) : Prop where
  nonempty : pieces ≠ []
  dotless : ∀ piece ∈ pieces, '.' ∉ piece.toList
  joined : ".".intercalate pieces = text

theorem intercalate_piecesAtDots (chars : List Char) :
    piecesAtDots chars ≠ [] ∧ (∀ piece ∈ piecesAtDots chars, '.' ∉ piece) ∧
      ['.'].intercalate (piecesAtDots chars) = chars := by
  induction chars with
  | nil => simp [piecesAtDots, List.intercalate]
  | cons char rest ih =>
      obtain ⟨nonempty, dotless, joined⟩ := ih
      obtain ⟨piece, pieces, split⟩ := List.exists_cons_of_ne_nil nonempty
      rw [split] at dotless joined
      by_cases dot : char = '.'
      · simp only [piecesAtDots, dot, if_true, split]
        refine ⟨nofun, List.forall_mem_cons.mpr ⟨List.not_mem_nil, dotless⟩, ?_⟩
        rw [List.intercalate_cons_cons, joined]
        rfl
      · simp only [piecesAtDots, dot, if_false, split]
        refine ⟨nofun, ?_, ?_⟩
        · refine List.forall_mem_cons.mpr ⟨?_, (List.forall_mem_cons.mp dotless).2⟩
          have inside := (List.forall_mem_cons.mp dotless).1
          simpa [inside] using Ne.symm dot
        · rw [← joined]
          cases pieces <;> simp [List.intercalate]

theorem splitAtDots_ofText (text : String) : SplitAtDots text (Marker.ofText text).path := by
  obtain ⟨nonempty, dotless, joined⟩ := intercalate_piecesAtDots text.toList
  refine ⟨by simpa [Marker.ofText] using nonempty, ?_, ?_⟩
  · intro piece inside
    obtain ⟨chars, listed, rfl⟩ := List.mem_map.mp inside
    simpa using dotless chars listed
  · rw [← String.toList_inj, String.toList_intercalate, Marker.ofText, List.map_map]
    simpa [Function.comp_def] using joined

/-- One of the tags is the marker: its path in full, or just the last piece of it. -/
def Carries (pieces : List String) (tags : List Tag) : Prop :=
  ∃ tag ∈ tags, tag.path = pieces ∨ ∃ last, pieces.getLast? = some last ∧ tag.path = [last]

theorem isOn_iff {marker : Marker} {tags : List Tag} :
    marker.isOn tags = true ↔ Carries marker.path tags := by
  have each (tag : Tag) : marker.isMark tag = true ↔
      tag.path = marker.path ∨ ∃ last, marker.path.getLast? = some last ∧ tag.path = [last] := by
    rw [Marker.isMark, Bool.or_eq_true, beq_iff_eq]
    refine or_congr_right ?_
    split
    · next name last single final =>
        rw [single, final]
        constructor
        · intro same
          exact ⟨last, rfl, by rw [eq_of_beq same]⟩
        · rintro ⟨other, same, alone⟩
          rw [Option.some.inj same]
          exact beq_iff_eq.mpr (List.cons.inj alone).1
    · next other =>
        refine iff_of_false nofun ?_
        rintro ⟨last, final, single⟩
        exact other last last single final
  simp only [Marker.isOn, List.any_eq_true, each, Carries]

/-- The scan for a marker is complete and sound, and in order. The text of the marker is split at its
points. An entry is listed exactly if the element at its address carries the marker, and it shows the
kind, the name and the range of that element. Addresses rise from entry to entry, so no element is listed
twice. An entry for a class leads to that class, so each marked class is processed once, with all of its
direct fields in their order. -/
theorem tagged_exact (text : String) (program : Program) :
    ∃ pieces, SplitAtDots text pieces ∧
      let elements := tagged (.ofText text) program
      (∀ entry, entry ∈ elements ↔ ∃ part, elementAt? program entry.path = some part ∧
        Carries pieces part.tags ∧ entry = part.entry entry.path) ∧
      elements.Pairwise (fun first second => Path.compare first.path second.path = .lt) ∧
      (∀ entry ∈ elements, entry.kind = .type → ∃ decl,
        elementAt? program entry.path = some (.type entry.span decl) ∧
          program.classAt? entry.path = some decl) ∧
      (taggedClasses program elements).map (fun type => (type.path, type.span)) =
        (elements.filter (·.kind == .type)).map (fun entry => (entry.path, entry.span)) ∧
      ∀ type ∈ taggedClasses program elements, program.classAt? type.path = some type.decl ∧
        type.decl.fields.Pairwise (fun first second => first.index < second.index) ∧
        ∀ field, field ∈ type.decl.fields ↔
          type.decl.members[field.index]? = some (.field field.span field.field) := by
  refine ⟨_, splitAtDots_ofText text, fun entry => ?_, ?_, fun entry found isType => ?_,
    taggedClasses_tagged _ program, fun type inside => ?_⟩
  · simp only [mem_tagged, isOn_iff]
  · exact (inOrder_tagged _ program).imp Path.compare_lt_iff.mpr
  · exact class_of_mem_tagged found isType
  · exact ⟨classAt?_of_mem_taggedClasses inside, type.decl.fields_rising, fun field => Class.mem_fields⟩

example :
    let mark : Tag := ⟨.origin, ["Data"]⟩
    let inner : Class := ⟨[mark], false, "Inner", [.constructor .origin ⟨[mark], true, [], []⟩]⟩
    let outer : Class := ⟨[⟨.origin, ["lib", "Data"]⟩], true, "Outer", [.nested .origin inner]⟩
    (tagged (.ofText "app.Data") ⟨[.importPath .origin ["lib"], .type .origin outer]⟩).map
        (fun entry => (entry.path, entry.kind, entry.name)) =
      [([1, 0], .type, "Inner"), ([1, 0, 0], .constructor, "constructor")] := by
  decide +kernel

end Accessor

end DataClass
