/-! The JavaScript that runs after a benchmark script and times its entry points: it warms each of
them up, times a fixed number of calls, and prints one record a benchmark. -/

namespace EngineTrials

/-- The text of the timing driver, with placeholders for the names and the two counts. -/
def benchTemplate : String := "(function (global, names, warmup, iterations) \x7b
  var MARK = \"@@bench \";
  var write = typeof print === \"function\" ? print : function (line) \x7b console.log(line); \x7d;
  var clock = typeof performance !== \"undefined\" && typeof performance.now === \"function\"
    ? function () \x7b return performance.now(); \x7d
    : function () \x7b return new Date().getTime(); \x7d;

  function describe(e) \x7b
    if (e !== null && typeof e === \"object\" && e.message !== undefined) \x7b
      return (e.name !== undefined ? e.name + \": \" : \"\") + e.message;
    \x7d
    return String(e);
  \x7d

  for (var n = 0; n < names.length; n++) \x7b
    var record = \x7b name: names[n] \x7d;
    try \x7b
      var fn = global[names[n]];
      if (typeof fn !== \"function\") \x7b
        throw new TypeError(names[n] + \" is not a function\");
      \x7d
      for (var w = 0; w < warmup; w++) \x7b
        fn();
      \x7d
      var start = clock();
      for (var i = 0; i < iterations; i++) \x7b
        fn();
      \x7d
      record.total_ms = clock() - start;
      record.iterations = iterations;
    \x7d catch (e) \x7b
      record.error = describe(e);
    \x7d
    write(MARK + JSON.stringify(record));
  \x7d
\x7d)(typeof globalThis !== \"undefined\" ? globalThis : this, __NAMES__, __WARMUP__, __ITERATIONS__);
"

end EngineTrials
