import DataClass.Proofs.Accessor.Elements
import DataClass.Proofs.Accessor.Convergence
import DataClass.Proofs.Program.Lookup
import DataClass.Proofs.Program.Pointing
namespace DataClass.Accessor

/-! Where the messages of a run are. Each of them is about a field of a class or about a marked element, and
has its range. -/

variable {tokens : List Token} {program : Program} {path : Path}

namespace Element

def extent : Element → Extent
  | .type span decl => .node span decl.extents
  | .field span decl => .node span decl.extents
  | .method span decl => .node span decl.extents
  | .constructor span decl => .node span decl.extents
  | .initializer span body => .node span (body.map Stmt.extent)
  | .function span decl => .node span decl.extents
  | .importPath span _ => .node span []

@[simp] theorem span_extent (element : Element) : element.extent.span = element.span := by
  cases element <;> rfl

@[simp] theorem extent_ofMember (member : Member) : (ofMember member).extent = member.extent := by
  cases member <;> rfl

@[simp] theorem extent_ofDeclaration (declaration : Declaration) :
    (ofDeclaration declaration).extent = declaration.extent := by
  cases declaration <;> rfl

/-- If a class stands on tokens, each of its members does. -/
theorem standsOn_member {element : Element} {decl : Class} {member : Member}
    (stands : element.extent.StandsOn tokens) (found : element.class? = some decl)
    (held : member ∈ decl.members) : member.extent.StandsOn tokens := by
  cases element with
  | type span other =>
      obtain rfl := Option.some.inj found
      obtain ⟨tags, isPublic, name, members⟩ := other
      obtain ⟨first, stop, laid⟩ := stands
      cases laid with
      | node _ parts =>
          refine parts.standsOn ?_
          rw [Class.extents, Member.extentAll_eq_map]
          exact List.mem_append_right _ (List.mem_map_of_mem held)
  | _ => cases found

theorem standsOn_descend {start element : Element} (stands : start.extent.StandsOn tokens)
    (reached : start.descend? path = some element) : element.extent.StandsOn tokens := by
  induction path generalizing start with
  | nil =>
      obtain rfl := Option.some.inj reached
      exact stands
  | cons index rest ih =>
      obtain ⟨member, held, deeper⟩ := Option.bind_eq_some_iff.mp reached
      obtain ⟨decl, found, held⟩ := Option.bind_eq_some_iff.mp held
      have here := standsOn_member stands found (List.mem_of_getElem? held)
      exact ih (extent_ofMember member ▸ here) deeper

end Element

/-- If the declarations of a program stand on tokens, all that can be found by an address does. -/
theorem standsOn_elementAt {element : Element}
    (stand : ∀ decl ∈ program.declarations, decl.extent.StandsOn tokens)
    (reached : elementAt? program path = some element) : element.extent.StandsOn tokens := by
  cases path with
  | nil => cases reached
  | cons index rest =>
      obtain ⟨decl, held, deeper⟩ := Option.bind_eq_some_iff.mp reached
      have here := stand decl (List.mem_of_getElem? held)
      exact Element.standsOn_descend (Element.extent_ofDeclaration decl ▸ here) deeper

/-! What is reported about a field has the range of the field. -/

variable {policy : ConflictPolicy} {decl : Class} {report : Diagnostic}

theorem span_settle {planned : Planned} {field : String} {span : Span} {methods : List Method}
    (reported : report ∈ (settle policy decl planned field span methods).diagnostics) :
    report.span = span := by
  induction methods with
  | nil => cases reported
  | cons method rest ih =>
      simp only [settle] at reported
      split at reported
      · split at reported
        · exact ih reported
        · exact ih reported
      · exact ih reported
      · split at reported
        · obtain rfl := List.mem_singleton.mp reported
          rfl
        · rcases List.mem_cons.mp reported with rfl | later
          · rfl
          · exact ih later

theorem span_planField {planned : Planned} {entry : FieldMember}
    (reported : report ∈ (planField policy decl planned entry).diagnostics) :
    report.span = entry.span := by
  unfold planField at reported
  split at reported
  · obtain rfl := List.mem_singleton.mp reported
    rfl
  · exact span_settle reported

theorem exists_field_of_planFields {planned : Planned} {entries : List FieldMember}
    (reported : report ∈ (planFields policy decl planned entries).diagnostics) :
    ∃ entry ∈ entries, report.span = entry.span := by
  induction entries generalizing planned with
  | nil => cases reported
  | cons entry rest ih =>
      rcases List.mem_append.mp reported with here | later
      · exact ⟨entry, List.mem_cons_self, span_planField here⟩
      · obtain ⟨entry, held, same⟩ := ih later
        exact ⟨entry, List.mem_cons_of_mem _ held, same⟩

theorem exists_field_of_planClasses {entries : List TaggedClass}
    (reported : report ∈ (planClasses policy entries).diagnostics) :
    ∃ entry ∈ entries, ∃ field ∈ entry.decl.fields, report.span = field.span := by
  induction entries with
  | nil => cases reported
  | cons entry rest ih =>
      rcases List.mem_append.mp reported with here | later
      · exact ⟨entry, List.mem_cons_self, exists_field_of_planFields here⟩
      · obtain ⟨entry, held, found⟩ := ih later
        exact ⟨entry, List.mem_cons_of_mem _ held, found⟩

theorem exists_part_of_round {settings : Settings} {elements : List TaggedElement}
    (stand : ∀ decl ∈ program.declarations, decl.extent.StandsOn tokens)
    (reported : report ∈ (round settings program elements).diagnostics) :
    ∃ part : Extent, part.StandsOn tokens ∧ report.span = part.span := by
  obtain ⟨entry, among, field, held, same⟩ := exists_field_of_planClasses reported
  have resolved := classAt?_of_mem_taggedClasses among
  rw [← elementAt?_class?] at resolved
  obtain ⟨element, reached, found⟩ := Option.bind_eq_some_iff.mp resolved
  have here := standsOn_elementAt stand reached
  have member := List.mem_of_getElem? (Class.mem_fields.mp held)
  exact ⟨_, Element.standsOn_member here found member, same⟩

/-- A run reports what a round over its marked elements reports, or that it did not settle, at one of these
elements. -/
theorem mem_run_diagnostics {settings : Settings} (reported : report ∈ (run settings program).diagnostics) :
    report ∈ (round settings program (tagged (.ofText settings.marker) program)).diagnostics ∨
      ∃ element ∈ tagged (.ofText settings.marker) program, report.span = element.span := by
  by_cases none : tagged (.ofText settings.marker) program = []
  · rw [run_of_unmarked none] at reported
    cases reported
  · by_cases allowed : 1 ≤ settings.maxRounds
    · rw [run_of_marked allowed none] at reported
      exact .inl reported
    · have stopped : settings.maxRounds = 0 := by omega
      rw [run, stopped, runFrom, freshElements_nil] at reported
      cases found : tagged (.ofText settings.marker) program with
      | nil => exact absurd found none
      | cons element rest =>
          rw [found] at reported
          obtain rfl := List.mem_singleton.mp reported
          exact .inr ⟨element, List.mem_cons_self, rfl⟩

theorem exists_part_of_run {settings : Settings}
    (stand : ∀ decl ∈ program.declarations, decl.extent.StandsOn tokens)
    (reported : report ∈ (run settings program).diagnostics) :
    ∃ part : Extent, part.StandsOn tokens ∧ report.span = part.span := by
  rcases mem_run_diagnostics reported with inside | ⟨entry, among, same⟩
  · exact exists_part_of_round stand inside
  · obtain ⟨part, reached, _, listed⟩ := mem_tagged.mp among
    refine ⟨_, standsOn_elementAt stand reached, ?_⟩
    rw [same, listed, part.span_extent]
    rfl

/-- All that is reported about a text points into it: what is wrong with its tokens, what is wrong with the
program, and what the pass reports about a program with which nothing is wrong, whatever the settings are and
whichever elements a round is run over. What is wrong with a program is reported in the order of the text. -/
theorem reports_pointInto (settings : Settings) (source : String) :
    (∀ faults, Token.scan source = .error faults → ∀ fault ∈ faults, fault.span.PointsInto source) ∧
    (∀ tokens faults, Token.scan source = .ok tokens → Program.ofTokens tokens = .error faults →
      (∀ fault ∈ faults, fault.span.PointsInto source) ∧
        faults.Pairwise fun fault next => fault.span.start ≤ next.span.start) ∧
    ∀ program, Program.ofSource source = .ok program →
      (∀ report ∈ (run settings program).diagnostics, report.span.PointsInto source) ∧
        ∀ elements, ∀ report ∈ (round settings program elements).diagnostics,
          report.span.PointsInto source := by
  refine ⟨fun _ => Token.pointsInto_of_scan_error, fun tokens faults scanned read => ?_,
    fun program read => ?_⟩
  · obtain ⟨found, ordered⟩ := Program.spans_of_ofTokens_error scanned read
    refine ⟨fun fault among => ?_, ordered⟩
    obtain ⟨first, stop, spans⟩ := found fault among
    exact spans.pointsInto scanned
  · cases scanned : Token.scan source with
    | error faults =>
        rw [Program.ofSource_of_error scanned] at read
        cases read
    | ok tokens =>
        rw [Program.ofSource_of_ok scanned] at read
        have stand := Program.standsOn_of_ofTokens scanned read
        refine ⟨fun report reported => ?_, fun elements report reported => ?_⟩
        · obtain ⟨part, stands, same⟩ := exists_part_of_run stand reported
          exact same ▸ stands.pointsInto scanned
        · obtain ⟨part, stands, same⟩ := exists_part_of_round stand reported
          exact same ▸ stands.pointsInto scanned

/-- An escape of a letter that is two bytes wide, faults behind such a letter and at the end of a text, and a
field without a type. -/
theorem reports_pointInto_accents :
    (Token.scan "'\\é" = .error [Token.unknownEscape 'é' ⟨1, 4⟩, Token.unterminatedString ⟨0, 4⟩] ∧
      (⟨1, 4⟩ : Span).PointsInto "'\\é") ∧
    (∃ tokens faults, Token.scan "fn f() \x7b 'é' = 2; \x7d @x import a; class" = .ok tokens ∧
      Program.ofTokens tokens = .error faults ∧
      faults.map (·.span) = [⟨9, 13⟩, ⟨21, 23⟩, ⟨39, 39⟩] ∧
      ∀ fault ∈ faults, fault.span.PointsInto "fn f() \x7b 'é' = 2; \x7d @x import a; class") ∧
    ∃ program, Program.ofSource "/* é */ @Data class A \x7b a; \x7d" = .ok program ∧
      (run .standard program).diagnostics.map (·.span) = [⟨25, 27⟩] ∧
      ∀ report ∈ (run .standard program).diagnostics,
        report.span.PointsInto "/* é */ @Data class A \x7b a; \x7d" := by
  refine ⟨?_, ?_, ?_⟩
  · have scanned : Token.scan "'\\é" =
        .error [Token.unknownEscape 'é' ⟨1, 4⟩, Token.unterminatedString ⟨0, 4⟩] := by decide +kernel
    exact ⟨scanned, (reports_pointInto .standard _).1 _ scanned _ List.mem_cons_self⟩
  · have told : ((Token.scan "fn f() \x7b 'é' = 2; \x7d @x import a; class").toOption.map fun tokens =>
        match Program.ofTokens tokens with
        | .error faults => faults.map (·.span)
        | .ok _ => []) = some [⟨9, 13⟩, ⟨21, 23⟩, ⟨39, 39⟩] := by decide +kernel
    cases scanned : Token.scan "fn f() \x7b 'é' = 2; \x7d @x import a; class" with
    | error faults =>
        rw [scanned] at told
        cases told
    | ok tokens =>
        rw [scanned] at told
        cases read : Program.ofTokens tokens with
        | ok program => simp [read, Except.toOption] at told
        | error faults =>
            simp only [Except.toOption, Option.map_some, read, Option.some.injEq] at told
            exact ⟨tokens, faults, rfl, read, told, ((reports_pointInto .standard _).2.1 _ _ scanned read).1⟩
  · obtain ⟨program, read, told⟩ : ∃ program,
        Program.ofSource "/* é */ @Data class A \x7b a; \x7d" = .ok program ∧
          ((run .standard program).diagnostics.map (·.span) == [⟨25, 27⟩]) = true :=
      Program.exists_read _ (by decide +kernel)
    exact ⟨program, read, eq_of_beq told, ((reports_pointInto _ _).2.2 program read).1⟩

end DataClass.Accessor
