import Wboot.ConfigLoad

/-! The number in the message about a refused line. The loop counts the lines that
the tokenizer hands out, and the tokenizer passes over empty ones. -/

namespace Wboot.LineNumbers
open StateProgram CString Tokens Machine Wstdlib PrintfOutput ConfigParser ConfigGrammar ConfigMessages
  ConfigLoad ServiceEnd

end Wboot.LineNumbers
