import BlockScript.Build.Program

/-! One step of each stage of building, in the cases where it is undisturbed: no declaration is
being read and nothing is skipped. -/
namespace BlockScript

theorem Declaration.Reader.feed_idle (token : Token) (plain : token.kind ≠ .specifier) :
    idle.feed token = (.ok .declined,idle) := by
  simp [feed,advance,plain]

namespace Postfix.Converter

theorem feed_awake (converter next : Converter) (token : Token) (ready : List Token)
    (awake : converter.skipping = false) (converted : converter.convert token = .ok (ready,next)) :
    converter.feed token = (.ok ready,next) := by
  have same : { converter with skipping := false } = converter := by rw [← awake]
  simp [feed,awake,same,converted]

theorem feed_refused (converter : Converter) (token : Token) (error : BuildError)
    (awake : converter.skipping = false) (failed : converter.convert token = .error error) :
    converter.feed token = (.error error,{ empty with skipping := !token.kind.endsStatement }) := by
  have same : { converter with skipping := false } = converter := by rw [← awake]
  simp [feed,awake,same,failed]

/-- Only a parenthesis can make a call of the name that waits. -/
theorem convert_settle (converter : Converter) (token : Token) (plain : token.kind ≠ .opening) :
    converter.convert token = converter.settle.convert token := by
  obtain ⟨output,stack,pending,skipping⟩ := converter
  cases pending with
  | none => rfl
  | some name =>
    unfold convert
    split
    · contradiction
    · rfl

theorem settle_skipping (converter : Converter) :
    converter.settle.skipping = converter.skipping := by
  unfold settle
  split <;> rfl

theorem settle_stack (converter : Converter) :
    converter.settle.stack = converter.stack := by
  unfold settle
  split <;> rfl

theorem settle_pending (converter : Converter) : converter.settle.pending = none := by
  unfold settle
  split <;> simp_all

end Postfix.Converter

namespace Assembly

theorem feed_awake (assembly next : Assembly) (token : Token) (awake : assembly.skipping = false)
    (applied : assembly.apply token = (next,none)) : assembly.feed token = next := by
  simp [feed,awake,applied,recover]

end Assembly

namespace Builder

theorem feed_ready (converter next : Postfix.Converter) (assembly : Assembly) (token : Token)
    (ready : List Token) (plain : token.kind ≠ .specifier) (awake : converter.skipping = false)
    (converted : converter.convert token = .ok (ready,next)) :
    feed ⟨.idle,converter,assembly⟩ token =
      ⟨.idle,next,ready.foldl Assembly.feed assembly⟩ := by
  have fed := converter.feed_awake next token ready awake converted
  simp [feed,Declaration.Reader.feed_idle token plain,convert,convertOnce,fed]

theorem feed_quiet (converter next : Postfix.Converter) (assembly : Assembly) (token : Token)
    (plain : token.kind ≠ .specifier) (awake : converter.skipping = false)
    (converted : converter.convert token = .ok ([],next)) :
    feed ⟨.idle,converter,assembly⟩ token = ⟨.idle,next,assembly⟩ :=
  feed_ready converter next assembly token [] plain awake converted

/-- What is no structural token is not offered again. -/
theorem feed_refused (converter : Postfix.Converter) (assembly : Assembly) (token : Token)
    (error : BuildError) (plain : token.kind ≠ .specifier)
    (within : token.kind.isStructural = false) (awake : converter.skipping = false)
    (failed : converter.convert token = .error error) :
    feed ⟨.idle,converter,assembly⟩ token =
      ⟨.idle,{ Postfix.Converter.empty with skipping := !token.kind.endsStatement },
        assembly.report error token⟩ := by
  have refused := converter.feed_refused token error awake failed
  simp [feed,Declaration.Reader.feed_idle token plain,convert,convertOnce,refused,within,report]

end Builder

end BlockScript
