import BlockScript.Proofs.Build.Assembled
import BlockScript.Proofs.Build.Convert

/-! Building without a report. Between two tokens nothing waits in the assembly, so what one token
does is one of a few moves. -/
namespace BlockScript
open Postfix

namespace Declaration

def Recognition.Tells (reader next : Reader) (token : Token) : Recognition → Prop
  | declined => reader = .idle ∧ next = .idle ∧ token.kind ≠ .specifier
  | consumed =>
    next ≠ .idle ∧ next ≠ .skipping ∧ token.kind.isStructural = false ∧
      (reader = .idle → token.kind = .specifier)
  | complete declaration =>
    reader ≠ .idle ∧ next = .idle ∧ declaration.Heading ∧ token.kind.isStructural = false

theorem heading_simple (type : TypeName) (called : String) : (simple type called).Heading := by
  unfold simple
  split
  · exact .handler called
  · exact .typed _

inductive Reads (token : Token) : Reader → Recognition → Reader → Prop
  | declined (plain : token.kind ≠ .specifier) : Reads token .idle .declined .idle
  | typed (type : TypeName) (kind : token.kind = .specifier) :
      Reads token .idle .consumed (.typed type)
  | named (type : TypeName) (kind : token.kind = .name) :
      Reads token (.typed type) .consumed (.named type token.lexeme)
  | simple (type : TypeName) (called : String) (kind : token.kind = .semicolon) :
      Reads token (.named type called) (.complete (simple type called)) .idle
  | opened (type : TypeName) (called : String) (kind : token.kind = .opening) :
      Reads token (.named type called) .consumed (.parameters ⟨called,type,[]⟩ .firstParameter)
  | closed (header : Header) (expecting : Expecting) (kind : token.kind = .closing) :
      Reads token (.parameters header expecting) (.complete header.toNode) .idle
  | parameterType (header : Header) (expecting : Expecting) (type : TypeName)
      (kind : token.kind = .specifier) :
      Reads token (.parameters header expecting) .consumed (.parameters header (.parameterName type))
  | parameterName (header : Header) (type : TypeName) (kind : token.kind = .name) :
      Reads token (.parameters header (.parameterName type)) .consumed
        (.parameters (header.addParameter ⟨token.lexeme,type⟩) .commaOrClosing)
  | comma (header : Header) (kind : token.kind = .comma) :
      Reads token (.parameters header .commaOrClosing) .consumed (.parameters header .parameterType)

theorem specifier_ok (token : Token) (after : TypeName → Reader) (recognition : Recognition)
    (next : Reader) (read : ((specifier token).map fun type => (Recognition.consumed,after type)) =
      .ok (recognition,next)) : ∃ type, recognition = .consumed ∧ next = after type := by
  cases specified : specifier token with
  | error error => simp [specified,Except.map] at read
  | ok type =>
    rw [specified] at read
    obtain ⟨rfl,rfl⟩ := Prod.mk.inj (Except.ok.inj read)
    exact ⟨type,rfl,rfl⟩

theorem reads_parameter (header : Header) (expecting : Expecting) (token : Token)
    (recognition : Recognition) (next : Reader)
    (read : readParameter header expecting token = .ok (recognition,next)) :
    Reads token (.parameters header expecting) recognition next := by
  unfold readParameter at read
  split at read
  next kind =>
    obtain ⟨rfl,rfl⟩ := Prod.mk.inj (Except.ok.inj read)
    exact .closed header _ kind
  next kind =>
    obtain ⟨rfl,rfl⟩ := Prod.mk.inj (Except.ok.inj read)
    exact .closed header _ kind
  next kind =>
    obtain ⟨type,rfl,rfl⟩ := specifier_ok token _ recognition next read
    exact .parameterType header _ type kind
  next kind =>
    obtain ⟨type,rfl,rfl⟩ := specifier_ok token _ recognition next read
    exact .parameterType header _ type kind
  next type kind =>
    obtain ⟨rfl,rfl⟩ := Prod.mk.inj (Except.ok.inj read)
    exact .parameterName header type kind
  next kind =>
    obtain ⟨rfl,rfl⟩ := Prod.mk.inj (Except.ok.inj read)
    exact .comma header kind
  next => contradiction

theorem Reader.reads (reader next : Reader) (token : Token) (recognition : Recognition)
    (reading : reader ≠ .skipping) (read : reader.feed token = (.ok recognition,next)) :
    Reads token reader recognition next := by
  have advanced : reader.advance token = .ok (recognition,next) := by
    unfold feed at read
    split at read <;> simp_all
  cases reader with
  | idle =>
    simp only [advance] at advanced
    split at advanced
    next kind =>
      obtain ⟨type,rfl,rfl⟩ := specifier_ok token _ recognition next advanced
      exact .typed type kind
    next plain =>
      obtain ⟨rfl,rfl⟩ := Prod.mk.inj (Except.ok.inj advanced)
      exact .declined plain
  | typed type =>
    simp only [advance] at advanced
    split at advanced
    next kind =>
      obtain ⟨rfl,rfl⟩ := Prod.mk.inj (Except.ok.inj advanced)
      exact .named type kind
    next => contradiction
  | named type called =>
    simp only [advance] at advanced
    split at advanced
    next kind =>
      obtain ⟨rfl,rfl⟩ := Prod.mk.inj (Except.ok.inj advanced)
      exact .simple type called kind
    next kind =>
      split at advanced
      · contradiction
      · obtain ⟨rfl,rfl⟩ := Prod.mk.inj (Except.ok.inj advanced)
        exact .opened type called kind
    next => contradiction
  | parameters header expecting =>
    exact reads_parameter header expecting token recognition next advanced
  | skipping => contradiction

theorem Reader.feed_tells (reader next : Reader) (token : Token) (recognition : Recognition)
    (reading : reader ≠ .skipping) (read : reader.feed token = (.ok recognition,next)) :
    recognition.Tells reader next token := by
  cases reader.reads next token recognition reading read with
  | declined plain => exact ⟨rfl,rfl,plain⟩
  | simple type called kind =>
    exact ⟨by simp,rfl,heading_simple type called,by simp [kind,TokenKind.isStructural]⟩
  | closed header expecting kind =>
    exact ⟨by simp,rfl,.function _ _ _,by simp [kind,TokenKind.isStructural]⟩
  | _ => simp_all [Recognition.Tells,TokenKind.isStructural]

end Declaration

def Builder.clean (reader : Declaration.Reader) (converter : Converter) (roots : List Node)
    (openBlocks : List Token) : Builder :=
  ⟨reader,converter,.resting roots openBlocks []⟩

inductive Moves (token : Token) : Builder → Builder → Prop
  | consumed (reader next : Declaration.Reader) (converter : Converter) (roots : List Node)
      (openBlocks : List Token) (active : next ≠ .idle)
      (within : token.kind.isStructural = false)
      (begins : reader = .idle → token.kind = .specifier) :
      Moves token (.clean reader converter roots openBlocks)
        (.clean next converter roots openBlocks)
  | declared (reader : Declaration.Reader) (converter : Converter) (declaration : Node)
      (roots : List Node) (openBlocks : List Token) (active : reader ≠ .idle)
      (heading : declaration.Heading) (calm : Calm roots)
      (within : token.kind.isStructural = false) :
      Moves token (.clean reader converter roots openBlocks)
        (.clean .idle converter (declaration :: roots) openBlocks)
  | kept (converter next : Converter) (roots : List Node) (openBlocks : List Token)
      (plain : token.kind ≠ .specifier) (within : Converter.tail? token = none)
      (blank : next.Blank ↔ converter.Blank ∧ (token.kind = .opening ∨ token.kind = .closing)) :
      Moves token (.clean .idle converter roots openBlocks) (.clean .idle next roots openBlocks)
  | ended (converter : Converter) (roots nodes after : List Node) (openBlocks still : List Token)
      (blank : nodes = [] ↔ converter.Blank)
      (pushed : Relation.ReflTransGen Pushed roots (nodes ++ roots))
      (closes : Closes token (nodes ++ roots) openBlocks after still) :
      Moves token (.clean .idle converter roots openBlocks) (.clean .idle .empty after still)

namespace Builder

inductive Clean : Builder → Prop
  | clean (reader : Declaration.Reader) (converter : Converter) (roots : List Node)
      (openBlocks : List Token) (reading : reader ≠ .skipping) (plain : converter.Plain)
      (awake : converter.skipping = false) : Clean (.clean reader converter roots openBlocks)

theorem clean_empty : empty.Clean := .clean .idle .empty [] [] (by simp) Converter.plain_empty rfl

/-- The way of a token through a builder in which nothing goes wrong. -/
inductive Ran (token : Token) : Builder → Builder → Prop
  | consumed (reader next : Declaration.Reader) (converter : Converter) (roots : List Node)
      (openBlocks : List Token) (read : reader.feed token = (.ok .consumed,next)) :
      Ran token (.clean reader converter roots openBlocks) (.clean next converter roots openBlocks)
  | declared (reader next : Declaration.Reader) (converter : Converter) (declaration : Node)
      (roots : List Node) (openBlocks : List Token)
      (read : reader.feed token = (.ok (.complete declaration),next)) (calm : Calm roots) :
      Ran token (.clean reader converter roots openBlocks)
        (.clean next converter (declaration :: roots) openBlocks)
  | converted (converter next : Converter) (ready : List Token) (roots : List Node)
      (openBlocks : List Token) (plain : token.kind ≠ .specifier)
      (ran : converter.convert token = .ok (ready,next)) :
      Ran token (.clean .idle converter roots openBlocks)
        ⟨.idle,next,ready.foldl Assembly.feed (.resting roots openBlocks [])⟩

theorem ran_convert (converter : Converter) (roots : List Node) (openBlocks : List Token)
    (token : Token) (awake : converter.skipping = false) (plain : token.kind ≠ .specifier)
    (fine : ((clean .idle converter roots openBlocks).convert token).assembly.reports = []) :
    Ran token (.clean .idle converter roots openBlocks)
      ((clean .idle converter roots openBlocks).convert token) := by
  cases ran : converter.convert token with
  | ok result =>
    obtain ⟨ready,next⟩ := result
    have once : (clean .idle converter roots openBlocks).convert token =
        ⟨.idle,next,ready.foldl Assembly.feed (.resting roots openBlocks [])⟩ := by
      simp only [convert,convertOnce,clean,converter.feed_awake next token ready awake ran]
    rw [once]
    exact .converted converter next ready roots openBlocks plain ran
  | error error =>
    have refused := converter.feed_refused token error awake ran
    have noted : (Builder.report ⟨.idle,{ Converter.empty with
        skipping := !token.kind.endsStatement },.resting roots openBlocks []⟩ error
          token).assembly.reports <:+
            ((clean .idle converter roots openBlocks).convert token).assembly.reports := by
      simp only [convert,convertOnce,clean,refused]
      split
      · exact reports_convertOnce _ token
      · exact List.suffix_rfl
    have none := nil_of_suffix noted fine
    contradiction

theorem Clean.ran (builder : Builder) (clean : builder.Clean) (token : Token)
    (fine : (builder.feed token).assembly.reports = []) :
    Ran token builder (builder.feed token) := by
  obtain ⟨reader,converter,roots,openBlocks,reading,plain,awake⟩ := clean
  cases read : reader.feed token with | mk result next =>
  cases result with
  | error error =>
    have noted : (Builder.report ⟨next,converter,.resting roots openBlocks []⟩ error
        token).assembly.reports <:+
          ((Builder.clean reader converter roots openBlocks).feed token).assembly.reports := by
      simp only [Builder.feed,Builder.clean,read]
      split
      · exact reports_convert _ token
      · exact List.suffix_rfl
    have none := nil_of_suffix noted fine
    contradiction
  | ok recognition =>
    cases recognition with
    | complete declaration =>
      have fed : (Builder.clean reader converter roots openBlocks).feed token =
          ⟨next,converter,(Assembly.resting roots openBlocks []).declare declaration token⟩ := by
        simp only [Builder.feed,Builder.clean,read]
      rw [fed] at fine ⊢
      have calm : Calm roots :=
        Assembly.calm_of_dropHeader (.resting roots openBlocks []) token fine
      have declared : (Assembly.resting roots openBlocks []).declare declaration token =
          .resting (declaration :: roots) openBlocks [] := by
        unfold Assembly.declare
        rw [Assembly.dropHeader_calm _ token calm]
        rfl
      rw [declared]
      exact .declared reader next converter declaration roots openBlocks read calm
    | consumed =>
      have fed : (Builder.clean reader converter roots openBlocks).feed token =
          .clean next converter roots openBlocks := by
        simp only [Builder.feed,Builder.clean,read]
      rw [fed]
      exact .consumed reader next converter roots openBlocks read
    | declined =>
      obtain ⟨rfl,rfl,specifier⟩ := reader.feed_tells next token .declined reading read
      have fed : (Builder.clean .idle converter roots openBlocks).feed token =
          (Builder.clean .idle converter roots openBlocks).convert token := by
        simp only [Builder.feed,Builder.clean,read]
      rw [fed] at fine ⊢
      exact ran_convert converter roots openBlocks token awake specifier fine

/-- Where nothing was wrong before a token and nothing is wrong behind it, the token made a move. -/
theorem Clean.feed (builder : Builder) (clean : builder.Clean) (token : Token)
    (fine : (builder.feed token).assembly.reports = []) :
    (builder.feed token).Clean ∧ Moves token builder (builder.feed token) := by
  have ran := clean.ran builder token fine
  obtain ⟨reader,converter,roots,openBlocks,reading,plain,awake⟩ := clean
  generalize (Builder.clean reader converter roots openBlocks).feed token = last at ran fine
  cases ran with
  | consumed _ next _ _ _ read =>
    obtain ⟨active,goesOn,within,begins⟩ := reader.feed_tells next token _ reading read
    exact ⟨.clean next converter roots openBlocks goesOn plain awake,
      .consumed reader next converter roots openBlocks active within begins⟩
  | declared _ next _ declaration _ _ read calm =>
    obtain ⟨active,rfl,heading,within⟩ := reader.feed_tells next token _ reading read
    exact ⟨.clean .idle converter _ openBlocks (by simp) plain awake,
      .declared reader converter declaration roots openBlocks active heading calm within⟩
  | converted _ next ready _ _ specifier ran =>
    cases converter.converted token ready next plain ran with
    | kept _ within plain skips blank =>
      exact ⟨.clean .idle next roots openBlocks (by simp) plain (skips.trans awake),
        .kept converter next roots openBlocks specifier within blank⟩
    | ended body tail behind plain blank =>
      obtain ⟨nodes,after,still,empty,pushed,closes,fed⟩ :=
        Assembly.fed_statement body tail token roots openBlocks plain behind fine
      rw [fed]
      exact ⟨.clean .idle .empty after still (by simp) Converter.plain_empty rfl,
        .ended converter roots nodes after openBlocks still (empty.trans blank) pushed closes⟩

/-- An invariant of the builder and the tokens that are still to come, kept by every move, holds at
the end of a run without reports. -/
theorem Clean.fed (invariant : List Token → Builder → Prop)
    (step : ∀ token rest builder next, Moves token builder next →
      invariant (token :: rest) builder → invariant rest next)
    (tokens : List Token) (builder : Builder) (clean : builder.Clean)
    (start : invariant tokens builder)
    (fine : (tokens.foldl Builder.feed builder).assembly.reports = []) :
    (tokens.foldl Builder.feed builder).Clean ∧
      invariant [] (tokens.foldl Builder.feed builder) := by
  induction tokens generalizing builder with
  | nil => exact ⟨clean,start⟩
  | cons token rest ih =>
    have before := nil_of_suffix (reports_fed _ rest) fine
    obtain ⟨next,moves⟩ := clean.feed builder token before
    exact ih (builder.feed token) next (step token rest builder _ moves start) fine

end Builder

end BlockScript
