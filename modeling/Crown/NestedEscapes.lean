import Crown.DecodedUrls
import Crown.StrippedHtml

/-! URLs that are decoded twice: by `sanitizeUrl` before they are tested and stored, and by
`decodePost` when they are read. -/
namespace Crown.Client

open Lib
open Boundary (Stops)

/-- A match of the pattern of escapes. -/
def Escape (sign : JsString) : Prop :=
  ∃ slash a b c d, sign = [slash, unit 'u', a, b, c, d] ∧
    (slash = unit '\\' ∨ slash = unit '/') ∧ ∀ u ∈ [a, b, c, d], (hexDigit u).isSome

/-- A part of a path begins with `u` and four hexadecimal digits. -/
def SlashEscaped (url : JsString) : Prop :=
  ∃ a b c d, (∀ u ∈ [a, b, c, d], (hexDigit u).isSome) ∧
    [unit '/', unit 'u', a, b, c, d] <:+: url

/-- A reader shows the URL itself, and of the URL a writer sends nothing or all but the white
space around it. -/
def PassesUnchanged (url : JsString) : Prop :=
  decodeUrl url = url ∧ sanitizeUrl url =
    if trim url = [] ∨ isDangerous ((trim url).filter (!isBreak ·)) = true then [] else trim url

/-- A unit stands as itself or as an escape of it. -/
inductive Once (u : UInt16) : JsString → Prop where
  | plain : Once u [u]
  | escape {slash a b c d : UInt16} (opens : slash = unit '\\' ∨ slash = unit '/')
      (code : escaped a b c d = some u) : Once u [slash, unit 'u', a, b, c, d]

/-- The units of a text stand there one after another, each in a way it may be written. -/
inductive Spelt (written : UInt16 → JsString → Prop) : JsString → JsString → Prop where
  | done : Spelt written [] []
  | unit {u : UInt16} {units sign text : JsString} (first : written u sign)
      (more : Spelt written units text) : Spelt written (u :: units) (sign ++ text)

/-- A unit stands as itself or as an escape, and so do the units of that. -/
def Twice (u : UInt16) (sign : JsString) : Prop :=
  ∃ inner, Once u inner ∧ Spelt Once inner sign

def NoSlash (u : UInt16) : Prop := u ≠ unit '\\' ∧ u ≠ unit '/'

instance (u : UInt16) : Decidable (NoSlash u) := inferInstanceAs (Decidable (_ ∧ _))

/-- The input begins with a dangerous scheme in which units are written as escapes, or as
escapes whose units are written as escapes. -/
def Respelled (input : JsString) : Prop :=
  ∃ front sign rest, isDangerous (front.filter (!isBreak ·)) = true ∧ (∀ u ∈ front, NoSlash u) ∧
    Spelt Twice front sign ∧ trim input = sign ++ rest

theorem escaped_isSome_iff {a b c d : UInt16} :
    (escaped a b c d).isSome ↔ ∀ u ∈ [a, b, c, d], (hexDigit u).isSome := by
  simp only [Option.isSome_iff_exists, escaped, bind, Option.bind_eq_some_iff]
  constructor
  · rintro ⟨_, _, first, _, second, _, third, _, fourth, -⟩
    simp [first, second, third, fourth]
  · intro digits
    simp only [List.forall_mem_cons] at digits
    obtain ⟨⟨a, first⟩, ⟨b, second⟩, ⟨c, third⟩, ⟨d, fourth⟩, -⟩ := digits
    exact ⟨_, a, first, b, second, c, third, d, fourth, rfl⟩

theorem decode_sign {sign : JsString} (escape : Escape sign) (rest : JsString) :
    ∃ value, decodeUnicodeEscapes (sign ++ rest) = value :: decodeUnicodeEscapes rest := by
  obtain ⟨slash, a, b, c, d, rfl, opens, digits⟩ := escape
  rw [← escaped_isSome_iff, Option.isSome_iff_exists] at digits
  obtain ⟨value, code⟩ := digits
  exact ⟨value, decodeUnicodeEscapes_escape opens code rest⟩

/-- A unit with which no escape begins is left as it is. -/
theorem decode_unescaped {u : UInt16} {rest : JsString} (none : ¬Boundary.Starts Escape (u :: rest)) :
    decodeUnicodeEscapes (u :: rest) = u :: decodeUnicodeEscapes rest := by
  rw [decodeUnicodeEscapes.eq_def]
  split
  · rename_i slash letter a b c d more equal
    split
    · rename_i code chosen
      split at chosen
      · rename_i opens
        simp only [Bool.and_eq_true, Bool.or_eq_true, decide_eq_true_eq] at opens
        obtain ⟨slashed, rfl⟩ := opens
        have digits := Option.isSome_of_mem chosen
        rw [escaped_isSome_iff] at digits
        refine absurd ⟨_, ⟨slash, a, b, c, d, rfl, slashed, digits⟩, more, ?_⟩ none
        exact equal.symm
      · cases chosen
    · obtain ⟨rfl, rfl⟩ := List.cons.inj equal
      rfl
  · rename_i equal
    obtain ⟨rfl, rfl⟩ := List.cons.inj equal
    rfl
  · rename_i equal
    cases equal

theorem length_decode_le (s : JsString) : (decodeUnicodeEscapes s).length ≤ s.length := by
  induction size : s.length using Nat.strong_induction_on generalizing s with
  | _ n ih =>
    cases s with
    | nil => exact Nat.zero_le _
    | cons u rest =>
      by_cases starts : Boundary.Starts Escape (u :: rest)
      · obtain ⟨sign, escape, more, same⟩ := starts
        obtain ⟨value, decoded⟩ := decode_sign escape more
        have length : sign.length = 6 := by
          obtain ⟨_, _, _, _, _, rfl, -⟩ := escape
          rfl
        rw [← same, List.length_append, length] at size
        have shorter := ih more.length (by omega) more rfl
        rw [← same, decoded, List.length_cons]
        omega
      · rw [decode_unescaped starts, List.length_cons]
        rw [List.length_cons] at size
        have shorter := ih rest.length (by omega) rest rfl
        omega

/-- A text without escapes, and no other, is left as it is. -/
theorem decode_eq_self_iff (s : JsString) :
    decodeUnicodeEscapes s = s ↔ ∀ sign, Escape sign → ¬sign <:+: s := by
  induction s with
  | nil =>
    refine iff_of_true rfl ?_
    rintro _ ⟨_, _, _, _, _, rfl, -⟩ inside
    exact List.cons_ne_nil _ _ (List.infix_nil.mp inside)
  | cons u s ih =>
    by_cases starts : Boundary.Starts Escape (u :: s)
    · obtain ⟨sign, escape, more, same⟩ := starts
      refine iff_of_false (fun unchanged => ?_) fun none => none sign escape ⟨[], more, same⟩
      obtain ⟨value, decoded⟩ := decode_sign escape more
      have shorter := length_decode_le more
      obtain ⟨_, _, _, _, _, rfl, -⟩ := escape
      rw [← same, decoded] at unchanged
      have lengths := congrArg List.length unchanged
      simp only [List.length_cons, List.length_append, List.length_nil] at lengths
      omega
    · rw [decode_unescaped starts, List.cons_inj_right, ih]
      refine forall₂_congr fun sign escape => not_congr ?_
      rw [List.infix_cons_iff]
      exact (or_iff_right fun start => starts ⟨sign, escape, start⟩).symm

/-- Without a backslash an escape begins with a slash. -/
theorem unescaped_iff {url : JsString} (plain : unit '\\' ∉ url) :
    (∀ sign, Escape sign → ¬sign <:+: url) ↔ ¬SlashEscaped url := by
  constructor
  · rintro none ⟨a, b, c, d, digits, inside⟩
    exact none _ ⟨unit '/', a, b, c, d, rfl, .inr rfl, digits⟩ inside
  · rintro none _ ⟨slash, a, b, c, d, rfl, rfl | rfl, digits⟩ inside
    · exact plain (inside.subset List.mem_cons_self)
    · exact none ⟨a, b, c, d, digits, inside⟩

theorem trim_inside (s : JsString) : trim s <:+: s := by
  obtain ⟨front, back, parts, -, -⟩ := trim_within s
  exact ⟨front, back, by rw [List.append_assoc, ← parts]⟩

theorem decodeUrl_eq (url : JsString) : decodeUrl url = decodeUnicodeEscapes url := by
  unfold decodeUrl
  split
  · rename_i empty
    rw [empty]
    rfl
  · rfl

/-- A URL without a backslash passes unchanged exactly when no part of its path looks like an
escape. -/
theorem passesUnchanged_iff {url : JsString} (plain : unit '\\' ∉ url) :
    PassesUnchanged url ↔ ¬SlashEscaped url := by
  rw [PassesUnchanged, decodeUrl_eq, decode_eq_self_iff, ← unescaped_iff plain]
  refine and_iff_left_of_imp fun none => ?_
  have trimmed : decodeUnicodeEscapes (trim url) = trim url :=
    (decode_eq_self_iff _).mpr fun sign escape inside =>
      none sign escape (inside.trans (trim_inside url))
  unfold sanitizeUrl
  rw [trimmed]
  by_cases empty : trim url = []
  · rw [if_pos empty, if_pos (.inl empty)]
  · rw [if_neg empty]
    simp only [empty, false_or]

/-- A URL of a picture. -/
theorem pictureUrl_unchanged : PassesUnchanged (js "https://h/a.png") := by
  have plain : ¬SlashEscaped (js "https://h/a.png") := by
    rintro ⟨a, b, c, d, -, inside⟩
    have start : [unit '/', unit 'u'] <:+: js "https://h/a.png" :=
      List.IsInfix.trans ⟨[], [a, b, c, d], rfl⟩ inside
    revert start
    with_unfolding_all decide
  exact (passesUnchanged_iff (by with_unfolding_all decide)).mpr plain

/-- A part of a path that begins with `u` and four digits. -/
theorem userPath_changed :
    ¬∀ url : JsString, unit '\\' ∉ url → decodeUrl url = url := by
  intro unchanged
  have same := unchanged (js "https://h/u0041") (by with_unfolding_all decide)
  revert same
  with_unfolding_all decide

theorem Once.of_decode {s : JsString} {u : UInt16} {more : JsString}
    (read : decodeUnicodeEscapes s = u :: more) :
    ∃ sign rest, s = sign ++ rest ∧ Once u sign ∧ more = decodeUnicodeEscapes rest := by
  cases s with
  | nil => cases read
  | cons v others =>
    rcases decodeUnicodeEscapes_cases read with
      ⟨rfl, rfl⟩ | ⟨a, b, c, d, rest, rfl, opens, code, rfl⟩
    · exact ⟨[u], others, rfl, .plain, rfl⟩
    · exact ⟨[v, unit 'u', a, b, c, d], rest, rfl, .escape opens code, rfl⟩

/-- What is read was written unit by unit. -/
theorem Spelt.of_decode {units : JsString} : ∀ {s more : JsString},
    decodeUnicodeEscapes s = units ++ more →
      ∃ sign rest, s = sign ++ rest ∧ Spelt Once units sign ∧ more = decodeUnicodeEscapes rest := by
  induction units with
  | nil => exact fun {s} _ read => ⟨[], s, rfl, .done, read.symm⟩
  | cons u units ih =>
    intro s more read
    obtain ⟨sign, rest, rfl, written, later⟩ := Once.of_decode read
    obtain ⟨text, rest, rfl, spelt, rfl⟩ := ih later.symm
    exact ⟨sign ++ text, rest, (List.append_assoc ..).symm, .unit written spelt, rfl⟩

theorem Spelt.of_decode_twice {units : JsString} : ∀ {s more : JsString},
    decodeUnicodeEscapes (decodeUnicodeEscapes s) = units ++ more →
      ∃ sign rest, s = sign ++ rest ∧ Spelt Twice units sign := by
  induction units with
  | nil => exact fun {s} _ _ => ⟨[], s, rfl, .done⟩
  | cons u units ih =>
    intro s more read
    obtain ⟨inner, between, middle, outer, later⟩ := Once.of_decode read
    obtain ⟨sign, rest, rfl, spelt, rfl⟩ := Spelt.of_decode middle
    obtain ⟨text, rest, rfl, others⟩ := ih later.symm
    exact ⟨sign ++ text, rest, (List.append_assoc ..).symm, .unit ⟨inner, outer, spelt⟩ others⟩

theorem Once.decode {u : UInt16} {sign : JsString} (written : Once u sign) (other : NoSlash u)
    (rest : JsString) :
    decodeUnicodeEscapes (sign ++ rest) = u :: decodeUnicodeEscapes rest := by
  cases written with
  | plain => exact decodeUnicodeEscapes_plain other rest
  | escape opens code => exact decodeUnicodeEscapes_escape opens code rest

/-- A reading that takes the sign of a unit for the unit takes the signs of all units for them. -/
theorem Spelt.reads {Written : UInt16 → JsString → Prop} {units sign : JsString}
    (read : JsString → JsString) (spelt : Spelt Written units sign)
    (each : ∀ u ∈ units, ∀ {sign}, Written u sign → ∀ rest, read (sign ++ rest) = u :: read rest)
    (rest : JsString) : read (sign ++ rest) = units ++ read rest := by
  induction spelt with
  | done => rfl
  | unit written more ih =>
    obtain ⟨first, later⟩ := List.forall_mem_cons.mp each
    rw [List.append_assoc, first written, ih later, List.cons_append]

theorem Spelt.decode {units sign : JsString} (spelt : Spelt Once units sign)
    (others : ∀ u ∈ units, NoSlash u) (rest : JsString) :
    decodeUnicodeEscapes (sign ++ rest) = units ++ decodeUnicodeEscapes rest :=
  spelt.reads _ (fun u member _ written => written.decode (others u member)) rest

/-- Where no slash is met each unit stands as itself. -/
theorem Spelt.plain {units sign : JsString} (spelt : Spelt Once units sign) :
    ∀ {front rest more : JsString}, sign ++ rest = front ++ more → front.length = units.length →
      (∀ u ∈ front, NoSlash u) → sign = units := by
  induction spelt with
  | done => exact fun _ _ _ => rfl
  | unit written _ ih =>
    intro front rest more same length slashless
    cases front with
    | nil => cases length
    | cons v front =>
      obtain ⟨other, others⟩ := List.forall_mem_cons.mp slashless
      cases written with
      | plain =>
        obtain ⟨rfl, later⟩ := List.cons.inj same
        rw [ih later (Nat.succ.inj length) others]
        rfl
      | escape opens code =>
        obtain ⟨rfl, -⟩ := List.cons.inj same
        exact (opens.elim other.1 other.2).elim

theorem digits_noSlash {a b c d : UInt16} (digits : ∀ u ∈ [a, b, c, d], (hexDigit u).isSome) :
    ∀ u ∈ [unit 'u', a, b, c, d], NoSlash u := by
  refine List.forall_mem_cons.mpr ⟨by decide, fun u member => ?_⟩
  have digit := digits u member
  constructor <;> rintro rfl <;> exact absurd digit (by decide)

/-- A unit that is written twice is read by two readings. -/
theorem Twice.decode {u : UInt16} {sign : JsString} (written : Twice u sign) (other : NoSlash u)
    (rest : JsString) : decodeUnicodeEscapes (decodeUnicodeEscapes (sign ++ rest)) =
      u :: decodeUnicodeEscapes (decodeUnicodeEscapes rest) := by
  obtain ⟨inner, outer, spelt⟩ := written
  cases outer with
  | plain =>
    rw [spelt.decode (List.forall_mem_singleton.mpr other), List.singleton_append,
      decodeUnicodeEscapes_plain other]
  | @escape slash a b c d opens code =>
    have digits := Option.isSome_of_mem code
    rw [escaped_isSome_iff] at digits
    cases spelt with
    | @unit _ _ first text single more =>
      have later := more.decode (digits_noSlash digits) rest
      have read : decodeUnicodeEscapes (slash :: decodeUnicodeEscapes (text ++ rest)) =
          u :: decodeUnicodeEscapes (decodeUnicodeEscapes rest) := by
        rw [later]
        exact decodeUnicodeEscapes_escape opens code _
      cases single with
      | escape opened value =>
        rw [List.append_assoc]
        exact (congrArg _ (decodeUnicodeEscapes_escape opened value _)).trans read
      | plain =>
        by_cases starts : Boundary.Starts Escape (slash :: (text ++ rest))
        · obtain ⟨_, ⟨_, a', b', c', d', rfl, -, digits'⟩, after, same⟩ := starts
          -- the first reading takes the whole escape
          have whole := more.plain (List.cons.inj same).2.symm rfl (digits_noSlash digits')
          subst whole
          exact (congrArg _ (decodeUnicodeEscapes_escape opens code rest)).trans
            (decodeUnicodeEscapes_plain other _)
        · rw [List.append_assoc, List.singleton_append, decode_unescaped starts, read]

theorem Spelt.decode_twice {units sign : JsString} (spelt : Spelt Twice units sign)
    (others : ∀ u ∈ units, NoSlash u) (rest : JsString) :
    decodeUnicodeEscapes (decodeUnicodeEscapes (sign ++ rest)) =
      units ++ decodeUnicodeEscapes (decodeUnicodeEscapes rest) :=
  spelt.reads (fun text => decodeUnicodeEscapes (decodeUnicodeEscapes text))
    (fun u member _ written => written.decode (others u member)) rest

theorem lower_space {u : UInt16} (space : isSpace u = true) : lower u = u := by
  refine if_neg fun upper => ?_
  simp only [isSpace, between, Bool.or_eq_true, Bool.and_eq_true, decide_eq_true_eq,
    UInt16.le_iff_toNat_le] at space upper
  have low : (unit 'A').toNat = 65 ∧ (unit 'Z').toNat = 90 := by decide
  have ends : (unit '\t').toNat = 9 ∧ (unit '\r').toNat = 13 := by decide
  have wide : (0x2000 : UInt16).toNat = 0x2000 := by decide
  rcases space with (((((((((within | rfl) | rfl) | rfl) | within) | rfl) | rfl) | rfl) | rfl) |
    rfl) | rfl
  · omega
  all_goals first
    | omega
    | exact absurd upper (by decide)

theorem scheme_units {u : UInt16} {word : JsString} (named : word.map lower ∈ dangerousSchemes)
    (member : u ∈ word) : isSpace u = false ∧ NoSlash u := by
  have table : (dangerousSchemes.all fun scheme => scheme.all fun v =>
      decide (isSpace v = false ∧ NoSlash v)) = true := by
    with_unfolding_all decide
  obtain ⟨visible, other⟩ := of_decide_eq_true
    (List.all_eq_true.mp (List.all_eq_true.mp table _ named) _ (List.mem_map_of_mem member))
  refine ⟨Bool.eq_false_iff.mpr fun space => ?_, ?_, ?_⟩
  · rw [lower_space space, space] at visible
    cases visible
  · rintro rfl
    exact other.1 (by decide)
  · rintro rfl
    exact other.2 (by decide)

/-- White space, a scheme in either case, white space and a colon. -/
theorem isDangerous_iff (url : JsString) : isDangerous url = true ↔
    ∃ spaces word gap rest, url = spaces ++ (word ++ (gap ++ unit ':' :: rest)) ∧
      Spaces spaces ∧ word.map lower ∈ dangerousSchemes ∧ Spaces gap := by
  simp only [isDangerous, List.any_eq_true, Bool.and_eq_true, decide_eq_true_eq,
    List.isPrefixOf_iff_prefix]
  constructor
  · rintro ⟨scheme, dangerous, ⟨more, starts⟩, colon⟩
    obtain ⟨word, after, parts, named, -⟩ := List.map_eq_append_iff.mp starts.symm
    rw [parts, ← named, List.length_map, List.drop_left] at colon
    obtain ⟨rest, ends⟩ := List.head?_eq_some_iff.mp colon
    refine ⟨url.takeWhile isSpace, word, after.takeWhile isSpace, rest, ?_,
      fun u => List.mem_takeWhile_imp, named ▸ dangerous, fun u => List.mem_takeWhile_imp⟩
    rw [← ends, List.takeWhile_append_dropWhile, ← parts, List.takeWhile_append_dropWhile]
  · rintro ⟨spaces, word, gap, rest, rfl, before, named, between⟩
    have first : (spaces ++ (word ++ (gap ++ unit ':' :: rest))).dropWhile isSpace =
        word ++ (gap ++ unit ':' :: rest) := by
      rw [List.dropWhile_append_of_pos before]
      cases word with
      | nil => exact absurd named (by with_unfolding_all decide)
      | cons u word =>
        exact List.dropWhile_cons_of_neg (by simp [(scheme_units named List.mem_cons_self).1])
    have last : (gap ++ unit ':' :: rest).dropWhile isSpace = unit ':' :: rest := by
      rw [List.dropWhile_append_of_pos between]
      exact List.dropWhile_cons_of_neg (by decide)
    refine ⟨word.map lower, named, ?_, ?_⟩
    · rw [first, List.map_append]
      exact List.prefix_append _ _
    · rw [first, List.length_map, List.drop_left, last]
      rfl

/-- A dangerous text begins with one that has no slash. -/
theorem isDangerous_front {url : JsString} (dangerous : isDangerous url = true) :
    ∃ front rest, url = front ++ rest ∧ isDangerous front = true ∧ ∀ u ∈ front, NoSlash u := by
  obtain ⟨spaces, word, gap, rest, rfl, before, named, between⟩ := (isDangerous_iff _).mp dangerous
  have spaceless : ∀ u, isSpace u = true → NoSlash u := by
    intro u space
    constructor <;> rintro rfl <;> exact absurd space (by decide)
  refine ⟨spaces ++ (word ++ (gap ++ [unit ':'])), rest, by simp,
    (isDangerous_iff _).mpr ⟨spaces, word, gap, [], rfl, before, named, between⟩, ?_⟩
  simp only [List.mem_append, List.mem_singleton]
  rintro u (space | letter | space | rfl)
  · exact spaceless u (before u space)
  · exact (scheme_units named letter).2
  · exact spaceless u (between u space)
  · decide

theorem isDangerous_append_right {front : JsString} (dangerous : isDangerous front = true)
    (rest : JsString) : isDangerous (front ++ rest) = true := by
  obtain ⟨spaces, word, gap, more, rfl, parts⟩ := (isDangerous_iff _).mp dangerous
  exact (isDangerous_iff _).mpr ⟨spaces, word, gap, more ++ rest, by simp, parts⟩

/-- The second reading finds a dangerous scheme exactly when one is spelled with nested
escapes. -/
theorem decodedTwice_iff (input : JsString) : isDangerous
    ((decodeUnicodeEscapes (decodeUnicodeEscapes (trim input))).filter (!isBreak ·)) = true ↔
      Respelled input := by
  constructor
  · intro dangerous
    obtain ⟨kept, after, parts, found, slashless⟩ := isDangerous_front dangerous
    obtain ⟨front, rest, read, rfl, -⟩ := List.filter_eq_append_iff.mp parts
    obtain ⟨sign, others, trimmed, spelt⟩ := Spelt.of_decode_twice read
    refine ⟨front, sign, others, found, fun u member => ?_, spelt, trimmed⟩
    by_cases ends : isBreak u = true
    · exact (low_opens (break_low ends)).2
    · exact slashless u (List.mem_filter.mpr ⟨member, by simp [ends]⟩)
  · rintro ⟨front, sign, rest, found, slashless, spelt, trimmed⟩
    rw [trimmed, spelt.decode_twice slashless, List.filter_append]
    exact isDangerous_append_right found _

/-- A URL that passes is harmless when it is read exactly when no nested escapes spell a
dangerous scheme in front. -/
theorem readAgain_harmless_iff {input : JsString} (passed : sanitizeUrl input ≠ []) :
    isDangerous ((decodeUrl (sanitizeUrl input)).filter (!isBreak ·)) = false ↔
      ¬Respelled input := by
  have stored : sanitizeUrl input = decodeUnicodeEscapes (trim input) := by
    unfold sanitizeUrl at passed ⊢
    split at passed
    · exact absurd rfl passed
    · rename_i present
      rw [if_neg present]
      dsimp only at passed ⊢
      split at passed
      · exact absurd rfl passed
      · rename_i harmless
        exact if_neg harmless
  rw [← decodedTwice_iff, Bool.not_eq_true, decodeUrl_eq, stored]

/-- The URL of a picture that is read again. -/
theorem pictureUrl_readAgain : ¬Respelled (js "https://h/a.png") :=
  (readAgain_harmless_iff (by with_unfolding_all decide)).mp (by with_unfolding_all decide)

/-- The backslash of an escape is written as an escape. -/
theorem nestedScript_harmful :
    ¬∀ input : JsString, sanitizeUrl input ≠ [] →
      isDangerous ((decodeUrl (sanitizeUrl input)).filter (!isBreak ·)) = false := by
  intro harmless
  have same := harmless (js "\\u005cu006aavascript:alert(1)") (by with_unfolding_all decide)
  revert same
  with_unfolding_all decide

end Crown.Client
