import RuleLang.Evaluation

/-!
# Samples

Expressions that show each feature of the language once, and their values.
-/

namespace RuleLang

/-- The sample expressions. -/
def samples : List String :=
  ["1+2*3 == 5",
    "(1+2) * 3 / 3.14 + 5 - 3",
    "1 == 2",
    "1!=2",
    "-11>=-5.6",
    "\"bob\" == \"jan\"",
    "1<2.2",
    "\"2022-11-21\" > \"2019-11-22 23:46:22\"",
    "1>=2",
    "1<=2",
    "[\"bob\",\"jack\"] ## \"bob\"",
    "[\"bob\",\"jack\"] ## \"ben\"",
    "[\"bob\",\"jack\"] !# \"bob\"",
    "[\"bob\",\"jack\"] !# \"jan\"",
    "[\"bob\",\"jack\"] !# [\"jan\"]",
    "[\"bob\",\"jack\"] ## [\"jan\"]",
    "1==1 && 1<2",
    "1==1 || 2==1",
    "1==3 || true == false",
    "true==false && 3==1"]

/-- The samples, each with its evaluation. -/
def evaluateSamples (engine : Engine) : List (String × Logged Error Value) :=
  samples.map fun sample => (sample, evaluate engine sample)

end RuleLang
