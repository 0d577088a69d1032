import DataClass.Proofs.Token.Tiling
namespace DataClass

/-- A range that points into a text: it ends at its beginning or behind it, within the text, and none of
its ends is inside of the bytes of a character. -/
structure Span.PointsInto (source : String) (span : Span) : Prop where
  forward : span.start ≤ span.stop
  within : span.stop ≤ source.utf8ByteSize
  begins : String.Pos.Raw.IsValid source ⟨span.start⟩
  ends : String.Pos.Raw.IsValid source ⟨span.stop⟩

namespace Token

/-! What the scanner finds, be it a token or something wrong, covers a piece of the text. -/

theorem utf8ByteSize_ofList (chars : List Char) : (String.ofList chars).utf8ByteSize = byteCount chars := by
  induction chars with
  | nil => rfl
  | cons char chars ih =>
      rw [String.ofList_cons, String.utf8ByteSize_append, String.utf8ByteSize_singleton, ih, byteCount_cons]

theorem isValid_byteCount {source : String} {front back : List Char} (whole : source.toList = front ++ back) :
    String.Pos.Raw.IsValid source ⟨byteCount front⟩ := by
  refine String.Pos.Raw.isValid_iff_exists_append.mpr ⟨.ofList front, .ofList back, ?_, ?_⟩
  · rw [← String.ofList_append, ← whole, String.ofList_toList]
  · rw [String.rawEndPos, utf8ByteSize_ofList]

theorem Covers.pointsInto {source : String} {span : Span} {front piece back : List Char}
    (covers : Covers source.toList span front piece back) : span.PointsInto source := by
  have size : source.utf8ByteSize = byteCount front + byteCount piece + byteCount back := by
    rw [← byteCount_append, ← byteCount_append, ← covers.whole, ← utf8ByteSize_ofList, String.ofList_toList]
  refine ⟨?_, ?_, ?_, ?_⟩
  · rw [covers.start, covers.stop]
    exact Nat.le_add_right ..
  · rw [covers.stop, size]
    exact Nat.le_add_right ..
  · rw [covers.start]
    exact isValid_byteCount (covers.whole.trans (List.append_assoc ..))
  · rw [covers.stop, ← byteCount_append]
    exact isValid_byteCount covers.whole

/-- The range covers some of the characters of a text that begins at `position`. -/
def Within (position : Nat) (chars : List Char) (span : Span) : Prop :=
  ∃ front piece back, chars = front ++ piece ++ back ∧ span.start = position + byteCount front ∧
    span.stop = span.start + byteCount piece

variable {position start stop : Nat} {quote char : Char} {chars taken piece back rest : List Char}
  {span : Span} {fault : Diagnostic}

theorem within_front (whole : chars = piece ++ back) (stops : stop = position + byteCount piece) :
    Within position chars ⟨position, stop⟩ :=
  ⟨[], piece, back, whole, rfl, stops⟩

theorem Within.behind (within : Within stop rest span) (whole : chars = taken ++ rest)
    (stops : stop = position + byteCount taken) : Within position chars span := by
  obtain ⟨front, piece, back, rfl, starts, ends⟩ := within
  refine ⟨taken ++ front, piece, back, ?_, ?_, ends⟩
  · rw [whole, List.append_assoc, List.append_assoc, List.append_assoc]
  · rw [starts, stops, byteCount_append, Nat.add_assoc]

theorem Within.pointsInto {source : String} (within : Within 0 source.toList span) :
    span.PointsInto source := by
  obtain ⟨front, piece, back, whole, starts, ends⟩ := within
  rw [Nat.zero_add] at starts
  exact (Covers.mk whole starts (starts ▸ ends)).pointsInto

/-- What is wrong inside of a string literal is an escape, which is two characters wide. -/
theorem within_stringBody (wrong : fault ∈ (stringBody quote position chars).faults) :
    Within position chars fault.span := by
  have wide (position : Nat) (marked : Char) :
      position + 1 + marked.utf8Size = position + byteCount ['\\', marked] := Nat.add_assoc ..
  fun_induction stringBody quote position chars with
  | case1 | case2 | case3 | case6 => cases wrong
  | case4 position marked rest stop value known other ih => exact (ih wrong).behind rfl (wide ..)
  | case5 position marked rest stop unknown other ih =>
      rcases List.mem_cons.mp wrong with rfl | later
      · exact within_front rfl (wide ..)
      · exact (ih later).behind rfl (wide ..)
  | case7 position char rest other plain inside ih =>
      have one : position + char.utf8Size = position + byteCount [char] := rfl
      exact (ih wrong).behind rfl one

theorem within_scanString (wrong : fault ∈ (scanString quote start rest).faults) :
    Within start (quote :: rest) fault.span := by
  have one : start + quote.utf8Size = start + byteCount [quote] := rfl
  have inside : ∀ fault ∈ (stringBody quote (start + quote.utf8Size) rest).faults,
      Within start (quote :: rest) fault.span :=
    fun fault among => (within_stringBody among).behind rfl one
  unfold scanString at wrong
  dsimp only at wrong
  split at wrong
  · exact inside fault wrong
  · rcases List.mem_append.mp wrong with within | last
    · exact inside fault within
    · -- the literal that does not end goes up to where its inside could be read
      obtain rfl := List.mem_singleton.mp last
      obtain ⟨taken, front, stops, _⟩ := stringBody_front quote (start + quote.utf8Size) rest
      have whole : quote :: rest = (quote :: taken) ++ _ := congrArg (quote :: ·) front
      refine within_front whole ?_
      rw [stops, byteCount_cons, Nat.add_assoc]

theorem within_scanNumber (wrong : fault ∈ (scanNumber start chars).faults) :
    Within start chars fault.span := by
  unfold scanNumber at wrong
  dsimp only at wrong
  split at wrong
  · cases wrong
  · split at wrong
    · cases wrong
    · obtain rfl := List.mem_singleton.mp wrong
      exact within_front List.takeWhile_append_dropWhile.symm rfl

theorem within_scanVisible (wrong : fault ∈ (scanVisible start char rest).faults) :
    Within start (char :: rest) fault.span := by
  unfold scanVisible at wrong
  split at wrong
  · cases wrong
  · cases wrong
  · split at wrong
    · cases wrong
    · split at wrong
      · exact within_scanString wrong
      · split at wrong
        · exact within_scanNumber wrong
        · split at wrong
          · cases wrong
          · obtain rfl := List.mem_singleton.mp wrong
            have one : char :: rest = [char] ++ rest := rfl
            exact within_front one rfl

theorem within_scanStep (wrong : fault ∈ (scanStep start char rest).faults) :
    Within start (char :: rest) fault.span := by
  rcases scanStep_cases start char rest with ⟨_, step⟩ | ⟨_, rfl, rfl⟩ | ⟨body, rfl, rfl⟩ | step
  · rw [step] at wrong
    cases wrong
  · cases wrong
  · have step : scanStep start '/' ('*' :: body) = scanBlockComment start body := rfl
    rw [step, scanBlockComment] at wrong
    split at wrong
    · cases wrong
    · obtain rfl := List.mem_singleton.mp wrong
      refine within_front (List.append_nil _).symm ?_
      rw [byteCount_cons, byteCount_cons, ← Nat.add_assoc, ← Nat.add_assoc]
      rfl
  · rw [step] at wrong
    exact within_scanVisible wrong

theorem within_scanFrom (wrong : fault ∈ (scanFrom position chars).2) :
    Within position chars fault.span := by
  fun_induction scanFrom position chars with
  | case1 => cases wrong
  | case2 position char rest lexeme later ih =>
      rcases List.mem_append.mp wrong with here | behind
      · exact within_scanStep here
      · obtain ⟨taken, takes, _⟩ := settles_scanStep position char rest
        have whole : char :: rest = (char :: taken) ++ _ := congrArg (char :: ·) takes.front
        refine (ih behind).behind whole ?_
        rw [byteCount_cons, ← Nat.add_assoc]
        exact takes.stop

variable {source : String}

theorem pointsInto_of_scan_error {faults : List Diagnostic} (read : scan source = .error faults) :
    ∀ fault ∈ faults, fault.span.PointsInto source := by
  obtain ⟨rfl, _⟩ := scan_eq_error.mp read
  exact fun fault wrong => (within_scanFrom wrong).pointsInto

theorem pointsInto_of_scan {tokens : List Token} (read : scan source = .ok tokens) :
    ∀ token ∈ tokens, token.span.PointsInto source := by
  obtain ⟨visible, scans, rfl⟩ := exists_scans_of_scan read
  refine List.forall_mem_append.mpr ⟨fun token among => ?_, List.forall_mem_singleton.mpr ?_⟩
  · obtain ⟨front, piece, back, covers, _⟩ := ((scans.tiles [] rfl).1 token among).covers
    exact covers.pointsInto
  · have atEnd : Covers source.toList (ending (byteCount source.toList)).span source.toList [] [] :=
      ⟨by simp, rfl, rfl⟩
    exact atEnd.pointsInto

end Token

end DataClass
