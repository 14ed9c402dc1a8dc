import CondCalc.Log.Level

/-! Which messages are logged. What the library shows is told for any choice of these. -/
namespace CondCalc

def programName : String := "mini_compiler"

structure LogFilter where
  shows : LogLevel → String → Bool
  /-- What could not be read of the text that specifies the filter. -/
  complaints : List String

end CondCalc
