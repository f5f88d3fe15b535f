import Cardwalk.Envelope
import Cardwalk.Tool.Calculator
/-!
# Built-in tools

A search that repeats its query, a calculator, and a stand-in for every
other name.  None of them reaches outside.
-/

set_option autoImplicit false

namespace Cardwalk

structure ToolError where
  tool : String
  message : String
deriving DecidableEq, Repr

def ToolError.text (e : ToolError) : String := "tool '" ++ e.tool ++ "' failed: " ++ e.message

namespace Tool

def searchName : String := "web_search"

def calculatorName : String := "calculator"

def argument (key : String) (args : Json) : String :=
  match args.get? key with
  | some v => v.display
  | none => ""

def search (query : String) : String :=
  "模拟搜索结果：找到关于 \"" ++ query ++ "\" 的信息。"

def calculate (expression : String) : String :=
  match Calculator.evaluate expression with
  | some x => "模拟计算结果：" ++ expression ++ " = " ++ Calculator.formatNumber x
  | none => "模拟计算失败：无法计算 \"" ++ expression ++ "\"。"

def builtin (name : String) (args : Json) : Except ToolError Json :=
  if (name = searchName || name = calculatorName) && !args.isObject then
    .error ⟨name, "expected object arguments, got " ++ args.compact⟩
  else if name = searchName then .ok (.string (search (argument "query" args)))
  else if name = calculatorName then
    .ok (.string (calculate (argument "expression" args)))
  else .ok (.string ("模拟工具 \"" ++ name ++ "\" 已执行。"))

end Tool

end Cardwalk
