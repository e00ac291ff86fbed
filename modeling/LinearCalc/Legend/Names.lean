set_option autoImplicit false

/-! # Names in formulas

What can be called by name in a formula of a legend. A name comes after a backslash; names of
spaces and of delimiters are given here with the backslash, since some have none.
-/

namespace LinearCalc.Legend

def symbolNames : List String := [
  "AA", "AE", "BbbC", "BbbN", "BbbP", "BbbQ", "BbbR", "BbbZ", "Bumpeq", "Cap", "Colon", "Cup",
  "DH", "Delta", "Doteq", "Downarrow", "Equiv", "Finv", "Game", "Gamma", "H", "Im", "Join", "L",
  "Lambda", "Ldsh", "Leftarrow", "Leftrightarrow", "Lleftarrow", "Longleftarrow",
  "Longleftrightarrow", "Longrightarrow", "Lsh", "Nearrow", "Nwarrow", "O", "OE", "Omega", "P",
  "Phi", "Pi", "Psi", "QED", "Rdsh", "Re", "Rightarrow", "Rrightarrow", "Rsh", "S", "Searrow",
  "Sigma", "Subset", "Supset", "Swarrow", "Theta", "Thorn", "Uparrow", "Updownarrow", "Upsilon",
  "Vdash", "Vert", "Vvdash", "Xi", "aa", "ac", "acute", "acwopencirclearrow", "adots", "ae",
  "aleph", "alpha", "amalg", "angle", "approx", "approxeq", "approxident", "arceq", "ast",
  "asterisk", "asymp", "backcong", "backepsilon", "backprime", "backsim", "backsimeq",
  "backslash", "bagmember", "bar", "barleftarrow", "barvee", "barwedge", "because", "beta",
  "beth", "between", "bigcap", "bigcirc", "bigcup", "bigodot", "bigoplus", "bigotimes",
  "bigsqcup", "bigstar", "bigtriangledown", "bigtriangleup", "biguplus", "bigvee", "bigwedge",
  "blacksquare", "blacktriangle", "blacktriangledown", "blacktriangleleft", "blacktriangleright",
  "bot", "bowtie", "boxbar", "boxdot", "boxminus", "boxplus", "boxtimes", "breve", "bullet",
  "bumpeq", "c", "candra", "cap", "carriagereturn", "cdot", "cdotp", "cdots", "cent", "check",
  "checkmark", "chi", "circ", "circeq", "circlearrowleft", "circlearrowright", "circledR",
  "circledS", "circledast", "circledcirc", "circleddash", "circumflexaccent", "clubsuit",
  "clubsuitopen", "colon", "coloneq", "combiningacuteaccent", "combiningbreve",
  "combiningdiaeresis", "combiningdotabove", "combiningfourdotsabove", "combininggraveaccent",
  "combiningoverline", "combiningrightarrowabove", "combiningthreedotsabove", "combiningtilde",
  "complement", "cong", "coprod", "copyright", "cup", "cupdot", "cupleftarrow", "curlyeqprec",
  "curlyeqsucc", "curlyvee", "curlywedge", "curvearrowleft", "curvearrowright",
  "cwopencirclearrow", "d", "dag", "dagger", "daleth", "danger", "dashleftarrow",
  "dashrightarrow", "dashv", "ddag", "ddagger", "ddddot", "dddot", "ddot", "ddots", "degree",
  "delta", "dh", "diamond", "diamondsuit", "digamma", "disin", "div", "divideontimes", "dot",
  "doteq", "doteqdot", "dotminus", "dotplus", "dots", "dotsminusdots", "doublebarwedge",
  "downarrow", "downdownarrows", "downharpoonleft", "downharpoonright", "downzigzagarrow", "ell",
  "emdash", "emptyset", "endash", "enspace", "epsilon", "eqcirc", "eqcolon", "eqdef", "eqgtr",
  "eqless", "eqsim", "eqslantgtr", "eqslantless", "equal", "equalparallel", "equiv", "eta",
  "eth", "exists", "fallingdotseq", "flat", "forall", "frakC", "frakZ", "frown", "gamma", "geq",
  "geqq", "geqslant", "gg", "ggg", "gimel", "gnapprox", "gneqq", "gnsim", "grave", "greater",
  "gtrapprox", "gtrdot", "gtreqless", "gtreqqless", "gtrless", "gtrsim", "guillemotleft",
  "guillemotright", "guilsinglleft", "guilsinglright", "hat", "hbar", "heartsuit",
  "hermitmatrix", "hookleftarrow", "hookrightarrow", "hslash", "i", "iiiint", "iiint", "iint",
  "imageof", "imath", "in", "increment", "infty", "int", "intercal", "invnot", "iota", "isinE",
  "isindot", "isinobar", "isins", "isinvb", "jmath", "k", "kappa", "kernelcontraction", "l",
  "lambda", "lambdabar", "langle", "lasp", "lbrace", "lbrack", "lceil", "ldots", "leadsto",
  "leftarrow", "leftarrowtail", "leftbrace", "leftharpoonaccent", "leftharpoondown",
  "leftharpoonup", "leftleftarrows", "leftparen", "leftrightarrow", "leftrightarrows",
  "leftrightharpoons", "leftrightsquigarrow", "leftsquigarrow", "leftthreetimes", "leq", "leqq",
  "leqslant", "less", "lessapprox", "lessdot", "lesseqgtr", "lesseqqgtr", "lessgtr", "lesssim",
  "lfloor", "lgroup", "lhd", "ll", "llcorner", "lll", "lnapprox", "lneqq", "lnsim",
  "longleftarrow", "longleftrightarrow", "longmapsto", "longrightarrow", "looparrowleft",
  "looparrowright", "lq", "lrcorner", "ltimes", "macron", "maltese", "mapsdown", "mapsfrom",
  "mapsto", "mapsup", "measeq", "measuredangle", "measuredrightangle", "merge", "mho", "mid",
  "minus", "minuscolon", "models", "mp", "mu", "multimap", "nLeftarrow", "nLeftrightarrow",
  "nRightarrow", "nVDash", "nVdash", "nabla", "napprox", "natural", "ncong", "ne", "nearrow",
  "neg", "neq", "nequiv", "nexists", "ngeq", "ngtr", "ngtrless", "ngtrsim", "ni", "niobar",
  "nis", "nisd", "nleftarrow", "nleftrightarrow", "nleq", "nless", "nlessgtr", "nlesssim",
  "nmid", "not", "notin", "notsmallowns", "nparallel", "nprec", "npreccurlyeq", "nrightarrow",
  "nsim", "nsimeq", "nsqsubseteq", "nsqsupseteq", "nsubset", "nsubseteq", "nsucc",
  "nsucccurlyeq", "nsupset", "nsupseteq", "ntriangleleft", "ntrianglelefteq", "ntriangleright",
  "ntrianglerighteq", "nu", "nvDash", "nvdash", "nwarrow", "o", "obar", "ocirc", "odot", "oe",
  "oequal", "oiiint", "oiint", "oint", "omega", "ominus", "oplus", "origof", "oslash", "otimes",
  "overarc", "overleftarrow", "overleftrightarrow", "parallel", "partial", "perp", "perthousand",
  "phi", "pi", "pitchfork", "plus", "pm", "prec", "precapprox", "preccurlyeq", "preceq",
  "precnapprox", "precnsim", "precsim", "prime", "prod", "propto", "prurel", "psi", "quad",
  "questeq", "rangle", "rasp", "ratio", "rbrace", "rbrack", "rceil", "rfloor", "rgroup", "rhd",
  "rho", "rightModels", "rightangle", "rightarrow", "rightarrowbar", "rightarrowtail",
  "rightassert", "rightbrace", "rightharpoonaccent", "rightharpoondown", "rightharpoonup",
  "rightleftarrows", "rightleftharpoons", "rightparen", "rightrightarrows", "rightsquigarrow",
  "rightthreetimes", "rightzigzagarrow", "ring", "risingdotseq", "rq", "rtimes", "scrB", "scrE",
  "scrF", "scrH", "scrI", "scrL", "scrM", "scrR", "scre", "scrg", "scro", "scurel", "searrow",
  "setminus", "sharp", "sigma", "sim", "simeq", "simneqq", "sinewave", "slash", "smallin",
  "smallintclockwise", "smallointctrcclockwise", "smallowns", "smallsetminus",
  "smallvarointclockwise", "smile", "solbar", "spadesuit", "spadesuitopen", "sphericalangle",
  "sqcap", "sqcup", "sqsubset", "sqsubseteq", "sqsubsetneq", "sqsupset", "sqsupseteq",
  "sqsupsetneq", "ss", "star", "stareq", "sterling", "subset", "subseteq", "subseteqq",
  "subsetneq", "subsetneqq", "succ", "succapprox", "succcurlyeq", "succeq", "succnapprox",
  "succnsim", "succsim", "sum", "supset", "supseteq", "supseteqq", "supsetneq", "supsetneqq",
  "swarrow", "t", "tau", "textasciiacute", "textasciicircum", "textasciigrave", "textasciitilde",
  "textexclamdown", "textquestiondown", "textquotedblleft", "textquotedblright", "therefore",
  "theta", "thickspace", "thorn", "tilde", "times", "to", "top", "triangle", "triangledown",
  "triangleeq", "triangleleft", "trianglelefteq", "triangleq", "triangleright",
  "trianglerighteq", "turnednot", "twoheaddownarrow", "twoheadleftarrow", "twoheadrightarrow",
  "twoheaduparrow", "ulcorner", "underbar", "unlhd", "unrhd", "uparrow", "updownarrow",
  "updownarrowbar", "updownarrows", "upharpoonleft", "upharpoonright", "uplus", "upsilon",
  "upuparrows", "urcorner", "vDash", "varepsilon", "varisinobar", "varisins", "varkappa",
  "varlrtriangle", "varniobar", "varnis", "varnothing", "varphi", "varpi", "varpropto", "varrho",
  "varsigma", "vartheta", "vartriangle", "vartriangleleft", "vartriangleright", "vdash", "vdots",
  "vec", "vee", "veebar", "veeeq", "vert", "wedge", "wedgeq", "widebar", "widehat", "widetilde",
  "wp", "wr", "xi", "yen", "zeta"]

/-- Characters that are symbols when they come after a backslash. -/
def escapedSymbols : List Char := ['%', '$', '\x7b', '\x7d', '[', ']', '_', '|']

/-- A character that is a name like those of letters: it is a symbol when it comes after a
backslash and no letter comes after it. -/
def nameMark : Char := '#'

/-- Characters that are symbols by themselves, beside letters, digits and all characters beyond
ASCII. -/
def plainSymbols : List Char :=
  [' ', '+', '-', '*', '/', '<', '>', '=', ':', ',', '.', ';', '!', '?', '&', '\'', '@', '(', ')',
    '[', ']', '|']

/-- Accents, which are put on what comes after them. -/
def accentNames : List String := [
  "hat", "breve", "bar", "grave", "acute", "tilde", "dot", "ddot", "dddot", "ddddot", "vec",
  "overrightarrow", "overleftarrow", "mathring", "widehat", "widetilde", "widebar"]

/-- Accents that are called by a single character. -/
def accentMarks : List Char := ['"', '\x60', '\'', '~', '.', '^']

def functionNames : List String := [
  "arccos", "csc", "ker", "min", "arcsin", "deg", "lg", "Pr", "arctan", "det", "lim", "sec",
  "arg", "dim", "liminf", "sin", "cos", "exp", "limsup", "sinh", "cosh", "gcd", "ln", "sup",
  "cot", "hom", "log", "tan", "coth", "inf", "max", "tanh"]

def fontNames : List String := [
  "rm", "cal", "it", "tt", "sf", "bf", "bfit", "default", "bb", "frak", "scr", "regular"]

def spaceNames : List String := [
  "\\,", "\\thinspace", "\\/", "\\>", "\\:", "\\;", "\\ ", "~", "\\enspace", "\\quad", "\\qquad",
  "\\!"]

/-- Delimiters, which grow with what is between them. -/
def delimiterNames : List String := [
  "(", "[", "\\\x7b", "<", "\\lfloor", "\\langle", "\\lceil", "\\lbrace", "\\leftbrace",
  "\\lbrack", "\\leftparen", "\\lgroup", ")", "]", "\\\x7d", ">", "\\rfloor", "\\rangle",
  "\\rceil", "\\rbrace", "\\rightbrace", "\\rbrack", "\\rightparen", "\\rgroup", "|", "\\|", "/",
  "\\backslash", "\\uparrow", "\\downarrow", "\\updownarrow", "\\Uparrow", "\\Downarrow",
  "\\Updownarrow", ".", "\\vert", "\\Vert"]

end LinearCalc.Legend
