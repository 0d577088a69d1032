import DataClass.Proofs.Accessor.Rounds
namespace DataClass.Accessor

/-! One round is enough. A round adds nothing that is marked and moves no address, so the marked
elements are the same as before and a run ends after its first round. -/

/-- Nothing that is added carries the marker. -/
def Unmarked (marker : Marker) (added : Additions) : Prop :=
  ∀ path, ∀ member ∈ added path, ∀ place, taggedInMember marker place member = []

theorem Unmarked.below {marker : Marker} {added : Additions} (unmarked : Unmarked marker added)
    (path : Path) : Unmarked marker (added.below path) :=
  fun rest => unmarked (path ++ rest)

theorem Unmarked.behind {marker : Marker} {added : Additions} (unmarked : Unmarked marker added) :
    Unmarked marker added.behind := by
  intro path
  cases path with
  | nil => simp [Additions.behind]
  | cons place below => exact unmarked ((place + 1) :: below)

theorem taggedMembersFrom_append (marker : Marker) (path : Path) (index : Nat)
    (left right : List Member) :
    taggedMembersFrom marker path index (left ++ right) =
      taggedMembersFrom marker path index left ++
        taggedMembersFrom marker path (index + left.length) right := by
  induction left generalizing index with
  | nil => simp [taggedMembersFrom]
  | cons member rest ih =>
      have next : index + (rest.length + 1) = index + 1 + rest.length := by omega
      simp [taggedMembersFrom, ih, next]

theorem taggedMembersFrom_eq_nil {marker : Marker} {path : Path} {index : Nat}
    {members : List Member}
    (unmarked : ∀ member ∈ members, ∀ place, taggedInMember marker place member = []) :
    taggedMembersFrom marker path index members = [] := by
  induction members generalizing index with
  | nil => simp [taggedMembersFrom]
  | cons member rest ih =>
      have first := unmarked member List.mem_cons_self (path ++ [index])
      have later : taggedMembersFrom marker path (index + 1) rest = [] :=
        ih fun other held => unmarked other (List.mem_cons_of_mem _ held)
      simp [taggedMembersFrom, first, later]

mutual

theorem taggedInMember_extend {marker : Marker} (path : Path) {added : Additions}
    (unmarked : Unmarked marker added) (member : Member) :
    taggedInMember marker path (member.extend added) = taggedInMember marker path member := by
  cases member with
  | nested span decl =>
      simp only [Member.extend, taggedInMember]
      exact taggedInClass_extend path span unmarked decl
  | _ => simp [Member.extend]

theorem taggedInClass_extend {marker : Marker} (path : Path) (span : Span) {added : Additions}
    (unmarked : Unmarked marker added) (decl : Class) :
    taggedInClass marker path span (decl.extend added) = taggedInClass marker path span decl := by
  cases decl with
  | mk tags isPublic name members =>
      have inside := taggedMembersFrom_extendFrom path 0 unmarked members
      have behind : taggedMembersFrom marker path members.length (added []) = [] :=
        taggedMembersFrom_eq_nil (unmarked [])
      simp [Class.extend, taggedInClass, taggedMembersFrom_append, Member.length_extendFrom,
        inside, behind]

theorem taggedMembersFrom_extendFrom {marker : Marker} (path : Path) (index : Nat)
    {added : Additions} (unmarked : Unmarked marker added) (members : List Member) :
    taggedMembersFrom marker path index (Member.extendFrom added index members) =
      taggedMembersFrom marker path index members := by
  cases members with
  | nil => rfl
  | cons member rest =>
      have head := taggedInMember_extend (path ++ [index]) (unmarked.below [index]) member
      have tail := taggedMembersFrom_extendFrom path (index + 1) unmarked rest
      simp [Member.extendFrom, taggedMembersFrom, head, tail]

end

/-- Adding what is not marked changes nothing about the marked elements: there are no others, and
their addresses, names and places are the same. -/
theorem tagged_extend {marker : Marker} {added : Additions} (unmarked : Unmarked marker added)
    (program : Program) : tagged marker (program.extend added) = tagged marker program := by
  have from_ (index : Nat) (declarations : List Declaration) (added : Additions)
      (unmarked : Unmarked marker added) :
      taggedDeclarationsFrom marker index (declarations.mapIdx fun place =>
          Declaration.onClass (Class.extend (added.below [place]))) =
        taggedDeclarationsFrom marker index declarations := by
    induction declarations generalizing index added with
    | nil => rfl
    | cons declaration rest ih =>
        have shifted := ih (index + 1) added.behind unmarked.behind
        have here : taggedInDeclaration marker [index]
            (declaration.onClass (Class.extend (added.below [0]))) =
              taggedInDeclaration marker [index] declaration := by
          cases declaration with
          | type span decl => exact taggedInClass_extend [index] span (unmarked.below [0]) decl
          | _ => rfl
        rw [List.mapIdx_cons, taggedDeclarationsFrom, taggedDeclarationsFrom, here]
        exact congrArg _ shifted
  exact from_ 0 program.declarations added unmarked

theorem additions_unmarked (marker : Marker) (settings : Settings) (program : Program)
    (elements : List TaggedElement) : Unmarked marker (additions settings program elements) := by
  intro path member inside place
  obtain ⟨_, _, _, _, pair, made, method, held, rfl⟩ := mem_additions inside
  obtain ⟨type, _, _, _, rfl⟩ := synthesize_eq_ok made
  simp only [Pair.methods, List.mem_cons, List.not_mem_nil, or_false] at held
  rcases held with rfl | rfl <;> simp [taggedInMember, taggedIf, getter, setter, Marker.isOn]

theorem tagged_round (settings : Settings) (program : Program) (elements : List TaggedElement)
    (marker : Marker) :
    tagged marker (round settings program elements).program = tagged marker program := by
  rw [round_program, tagged_extend (additions_unmarked marker settings program elements)]

theorem settle_reports {policy : ConflictPolicy} {decl : Class} {planned : Planned}
    {field : String} {span : Span} {methods : List Method} {report : Diagnostic}
    (reported : report ∈ (settle policy decl planned field span methods).diagnostics) :
    (∃ fault : FieldFault, report = fault.toDiagnostic span) ∨ report.severity = .note := by
  induction methods with
  | nil => cases reported
  | cons method rest ih =>
      simp only [settle] at reported
      cases slot : slotFor decl planned method with
      | free =>
          rw [slot] at reported
          by_cases rejected : (settle policy decl planned field span rest).isRejected = true
          · simp only [rejected, if_true] at reported
            exact ih reported
          · simp only [rejected] at reported
            exact ih reported
      | identical =>
          rw [slot] at reported
          exact ih reported
      | taken obstacle =>
          rw [slot] at reported
          cases policy with
          | error =>
              obtain rfl := List.mem_singleton.mp reported
              exact .inl ⟨_, rfl⟩
          | skip =>
              rcases List.mem_cons.mp reported with rfl | later
              · exact .inr rfl
              · exact ih later

/-- All that a round reports is why a field got no accessors, or that a method was kept. -/
theorem round_reports {settings : Settings} {program : Program} {elements : List TaggedElement}
    {report : Diagnostic}
    (reported : report ∈ (round settings program elements).diagnostics) :
    (∃ (fault : FieldFault) (span : Span), report = fault.toDiagnostic span) ∨
      report.severity = .note := by
  have ofFields {decl : Class} (planned : Planned) (entries : List FieldMember)
      (present : report ∈ (planFields settings.policy decl planned entries).diagnostics) :
      (∃ (fault : FieldFault) (span : Span), report = fault.toDiagnostic span) ∨
        report.severity = .note := by
    induction entries generalizing planned with
    | nil => cases present
    | cons entry rest ih =>
        simp only [planFields] at present
        rcases List.mem_append.mp present with here | later
        · simp only [planField] at here
          cases made : synthesize decl.name entry.field entry.span with
          | error fault =>
              rw [made] at here
              exact .inl ⟨fault, entry.span, List.mem_singleton.mp here⟩
          | ok pair =>
              rw [made] at here
              rcases settle_reports here with ⟨fault, same⟩ | note
              · exact .inl ⟨fault, entry.span, same⟩
              · exact .inr note
        · exact ih _ later
  have ofClasses (entries : List TaggedClass)
      (present : report ∈ (planClasses settings.policy entries).diagnostics) :
      (∃ (fault : FieldFault) (span : Span), report = fault.toDiagnostic span) ∨
        report.severity = .note := by
    induction entries with
    | nil => cases present
    | cons entry rest ih =>
        rcases List.mem_append.mp present with here | later
        · exact ofFields [] entry.decl.fields here
        · exact ih later
  exact ofClasses _ reported

theorem FieldFault.message_head (fault : FieldFault) :
    fault.message.toList.head? ≠ some 'A' := by
  unfold FieldFault.message
  cases fault <;> simp

/-- The message of an unsettled run is none that a round gives. -/
theorem unsettled_not_reported (settings : Settings) (program : Program)
    (elements : List TaggedElement) (maxRounds pending : Nat) (span : Span) :
    unsettled maxRounds pending span ∉ (round settings program elements).diagnostics := by
  intro reported
  rcases round_reports reported with ⟨fault, place, same⟩ | note
  · have messages : (unsettled maxRounds pending span).message = fault.message := by rw [same]; rfl
    apply FieldFault.message_head fault
    rw [← messages]
    simp [unsettled]
  · simp [unsettled] at note

theorem freshElements_nil (settings : Settings) (program : Program) :
    freshElements settings [] program = tagged (.ofText settings.marker) program := by
  simp [freshElements]

theorem freshElements_of_processed {settings : Settings} {program : Program}
    {processed : List Path}
    (all : ∀ element ∈ tagged (.ofText settings.marker) program, element.path ∈ processed) :
    freshElements settings processed program = [] := by
  simpa [freshElements, List.filter_eq_nil_iff] using all

theorem run_of_unmarked {settings : Settings} {program : Program}
    (none : tagged (.ofText settings.marker) program = []) :
    run settings program = ⟨program, .settled, []⟩ := by
  rw [run, runFrom, freshElements_nil, none]

theorem run_of_marked {settings : Settings} {program : Program} (allowed : 1 ≤ settings.maxRounds)
    (some : tagged (.ofText settings.marker) program ≠ []) :
    let once := round settings program (tagged (.ofText settings.marker) program)
    run settings program =
      ⟨once.program, ⟨1, once.outcome.typesProcessed, once.outcome.methodsAdded,
        once.outcome.errors, true⟩, once.diagnostics⟩ := by
  obtain ⟨left, exact⟩ := Nat.exists_eq_add_of_le' allowed
  rw [run, exact, runFrom, freshElements_nil]
  cases found : tagged (.ofText settings.marker) program with
  | nil => exact absurd found some
  | cons first rest =>
      have done : freshElements settings ([] ++ (first :: rest).map (·.path))
          (round settings program (first :: rest)).program = [] := by
        apply freshElements_of_processed
        intro element member
        rw [tagged_round, found] at member
        exact List.mem_append_right [] (List.mem_map_of_mem member)
      dsimp only
      rw [runFrom, done]
      simp [RunOutcome.after, RunOutcome.settled]

theorem run_of_stopped {settings : Settings} {program : Program} (stopped : settings.maxRounds = 0)
    (some : tagged (.ofText settings.marker) program ≠ []) :
    ∃ fault : Diagnostic, fault.isError = true ∧
      run settings program = ⟨program, ⟨0, 0, 0, 1, false⟩, [fault]⟩ := by
  rw [run, stopped, runFrom, freshElements_nil]
  cases found : tagged (.ofText settings.marker) program with
  | nil => exact absurd found some
  | cons first rest => exact ⟨unsettled settings.maxRounds (rest.length + 1) first.span, rfl, rfl⟩

/-- What a run makes of a program is what one round makes of it, also when nothing is marked. -/
theorem run_results {settings : Settings} (allowed : 1 ≤ settings.maxRounds) (program : Program) :
    let once := round settings program (tagged (.ofText settings.marker) program)
    (run settings program).program = once.program ∧
      (run settings program).outcome.methodsAdded = once.outcome.methodsAdded ∧
      (run settings program).diagnostics = once.diagnostics := by
  by_cases none : tagged (.ofText settings.marker) program = []
  · rw [run_of_unmarked none, none]
    exact ⟨rfl, rfl, rfl⟩
  · rw [run_of_marked allowed none]
    exact ⟨rfl, rfl, rfl⟩

/-- A run is one round over the marked elements of its program, if there are any. Without marked
elements nothing happens. With some but without a round allowed, one error is the only result. With
a round allowed that round settles everything, and the run never reports that it did not settle. -/
theorem run_eq_round (settings : Settings) (program : Program) :
    let found := tagged (.ofText settings.marker) program
    let once := round settings program found
    (found = [] → run settings program = ⟨program, ⟨0, 0, 0, 0, true⟩, []⟩) ∧
    (found ≠ [] → 1 ≤ settings.maxRounds →
      run settings program =
        ⟨once.program, ⟨1, once.outcome.typesProcessed, once.outcome.methodsAdded,
          once.outcome.errors, true⟩, once.diagnostics⟩ ∧
      ∀ maxRounds pending span,
        unsettled maxRounds pending span ∉ (run settings program).diagnostics) ∧
    (found ≠ [] → settings.maxRounds = 0 →
      ∃ fault : Diagnostic, fault.isError = true ∧
        run settings program = ⟨program, ⟨0, 0, 0, 1, false⟩, [fault]⟩) := by
  refine ⟨run_of_unmarked, fun some allowed => ⟨run_of_marked allowed some, ?_⟩,
    fun some stopped => run_of_stopped stopped some⟩
  intro maxRounds pending span
  rw [run_of_marked allowed some]
  exact unsettled_not_reported settings program _ maxRounds pending span

end DataClass.Accessor
